import JourneyPlanner.Json.Record
import JourneyPlanner.Proofs.Outcomes

/-!
# Records

What a record is read as depends on the values its members have. A field is taken from a record
in which its name comes once, or from one without it if the field may be left out; fields are
taken one after the other. The other way round, what a decoder gives has every property that
the decoders of its parts see to.
-/

namespace JourneyPlanner.Json

variable {α β : Type} {name other : String} {members : Members} {encode : α → Json}
  {decode : Decoder α}

/-! ### The values of a name -/

/-- The values of the members of a name. -/
def valuesOf (name : String) (members : Members) : List Json :=
  (members.filter fun m => m.1 = name).map Prod.snd

@[simp] theorem valuesOf_nil (name : String) : valuesOf name [] = [] := rfl

@[simp] theorem valuesOf_cons (name other : String) (value : Json) (rest : Members) :
    valuesOf name ((other, value) :: rest) =
      if other = name then value :: valuesOf name rest else valuesOf name rest := by
  by_cases h : other = name <;> simp [valuesOf, h]

@[simp] theorem valuesOf_append (name : String) (front back : Members) :
    valuesOf name (front ++ back) = valuesOf name front ++ valuesOf name back := by
  simp [valuesOf]

/-- An optional member has the value of its name, if there is one. -/
@[simp] theorem valuesOf_optionalMember (name other : String) (encode : α → Json)
    (o : Option α) : valuesOf name (optionalMember other encode o) =
      if other = name then (o.map encode).toList else [] := by
  cases o <;> simp [optionalMember]

/-- The members of a name are found with their values. -/
theorem map_snd_occurrences (name : String) (start : Nat) (members : Members) :
    (occurrences name start members).map Prod.snd = valuesOf name members := by
  induction members generalizing start with
  | nil => rfl
  | cons m rest ih =>
    rw [valuesOf_cons, occurrences, ← ih (start + 1)]
    split <;> rfl

/-! ### Fields that are taken -/

/-- A reader takes this out of members. -/
def FieldReader.Takes (reader : FieldReader α) (members : Members) (a : α) : Prop :=
  reader members = .ok a

namespace FieldReader

/-- What is taken may be handed to a function. -/
theorem Takes.map {x : FieldReader α} {a : α} (hx : x.Takes members a) (f : α → β) :
    Takes (f <$> x) members (f a) := by
  show FieldReader.seq (FieldReader.pure f) x members = .ok (f a)
  rw [FieldReader.seq, hx]
  rfl

/-- A function that is taken gets the argument that is taken next. -/
theorem Takes.seq {f : FieldReader (α → β)} {x : FieldReader α} {g : α → β} {a : α}
    (hf : f.Takes members g) (hx : x.Takes members a) : Takes (f <*> x) members (g a) := by
  show FieldReader.seq f x members = .ok (g a)
  rw [FieldReader.seq, hf, hx]

end FieldReader

/-- A member whose name comes once is taken. -/
theorem takes_member {missing : Except ReadError α} {value : Json} {a : α}
    (hvalues : valuesOf name members = [value]) (hdecode : decode value = .ok a) :
    (member name decode missing).Takes members a := by
  rw [← map_snd_occurrences name 0] at hvalues
  obtain ⟨⟨position, value'⟩, hfound, rfl⟩ := List.map_eq_singleton_iff.1 hvalues
  rw [FieldReader.Takes, member, hfound]
  simp only [hdecode]

/-- A field without a member has its default. -/
theorem takes_default {default : α} (hvalues : valuesOf name members = []) :
    (withDefault name decode default).Takes members default := by
  rw [← map_snd_occurrences name 0] at hvalues
  rw [FieldReader.Takes, withDefault, member, List.map_eq_nil_iff.1 hvalues]
  rfl

/-- What is not written as null is read as it is where null may stand. -/
theorem nullable_eq_ok {value : Json} {a : α} (hnull : value ≠ .null)
    (hdecode : decode value = .ok a) : nullable decode value = .ok (some a) := by
  unfold nullable
  split
  · exact absurd rfl hnull
  · rw [hdecode]
    rfl

/-- A value that may be null is read back. -/
theorem nullable_ofOption {o : Option α} (hnull : ∀ a ∈ o, encode a ≠ .null)
    (hread : ∀ a ∈ o, decode (encode a) = .ok a) : nullable decode (ofOption encode o) = .ok o := by
  cases o with
  | none => rfl
  | some a => exact nullable_eq_ok (hnull a rfl) (hread a rfl)

/-- A member that is left out when it has no value is read back. -/
theorem takes_optional {o : Option α} (hvalues : valuesOf name members = (o.map encode).toList)
    (hnull : ∀ a ∈ o, encode a ≠ .null) (hread : ∀ a ∈ o, decode (encode a) = .ok a) :
    (optional name decode).Takes members o := by
  cases o with
  | none => exact takes_default hvalues
  | some a => exact takes_member hvalues (nullable_eq_ok (hnull a rfl) (hread a rfl))

/-- A record is read as what its fields are taken as. -/
theorem record_obj {names : List String} {fields : FieldReader α} {a : α}
    (h : fields.Takes members a) : record names fields (.obj members) = .ok a := by
  rw [record, h]
  rfl

/-- A value that is read and then passes its check. -/
theorem checked_eq_ok {check : α → Except ReadError β} {value : Json} {a : α} {b : β}
    (hdecode : decode value = .ok a) (hcheck : check a = .ok b) :
    checked decode check value = .ok b := by
  rw [checked, hdecode]
  exact hcheck

/-- A value that is made of what has been read, if it can be made. -/
theorem checked_id_eq_ok {decode : Decoder (Except ReadError α)} {made : Except ReadError α}
    {value : Json} {a : α} (hdecode : decode value = .ok made) (hmade : made = .ok a) :
    checked decode id value = .ok a :=
  checked_eq_ok hdecode hmade

/-- The items of an array are read back one after the other. -/
theorem list_arr_map {values : List α} (h : ∀ a ∈ values, decode (encode a) = .ok a) :
    list decode (.arr (values.map encode)) = .ok values := by
  rw [list]
  induction values with
  | nil => rfl
  | cons a rest ih =>
    rw [List.map_cons, items, h a (by simp), ih fun b hb => h b (by simp [hb])]
    rfl

/-! ### Texts and numbers -/

/-- A text is read back. -/
theorem string_str (text : String) : string (.str text) = .ok text := rfl

/-- An optional text is read back. -/
theorem takes_optional_string {o : Option String}
    (hvalues : valuesOf name members = (o.map Json.str).toList) :
    (optional name string).Takes members o :=
  takes_optional hvalues (fun _ _ => Json.noConfusion) fun text _ => string_str text

/-- A truth value is read back. -/
theorem boolean_bool (value : Bool) : boolean (.bool value) = .ok value := rfl

/-- A signed number of 32 bits. -/
def FitsHalf (n : Int) : Prop :=
  -Int.pow 2 31 ≤ n ∧ n < Int.pow 2 31

instance (n : Int) : Decidable (FitsHalf n) :=
  inferInstanceAs (Decidable (_ ∧ _))

/-- Within bounds a number is read back. -/
theorem integerIn_int {lowest highest n : Int} (hlow : lowest ≤ n) (hhigh : n ≤ highest) :
    integerIn lowest highest (.int n) = .ok n :=
  if_pos ⟨hlow, hhigh⟩

/-- A number of 32 bits is read back. -/
theorem int32_int {n : Int} (h : FitsHalf n) : int32 (.int n) = .ok n :=
  integerIn_int h.1 (Int.le_sub_one_of_lt h.2)

/-- A number of 64 bits is read back. -/
theorem int64_int {n : Int} (h : fitsWord n = true) : int64 (.int n) = .ok n := by
  simp only [fitsWord, Bool.and_eq_true, decide_eq_true_eq] at h
  exact integerIn_int h.1 (Int.le_sub_one_of_lt h.2)

/-- A finite float is written as a number. -/
theorem ofFloat_ne_null {x : Float} (h : Decimal.isFinite x = true) : ofFloat x ≠ .null := by
  rw [ofFloat, if_pos h]
  exact Json.noConfusion

/-- A finite float is read back. -/
theorem number_ofFloat {x : Float} (h : Decimal.isFinite x = true) :
    number (ofFloat x) = .ok x := by
  rw [ofFloat, if_pos h]
  rfl

/-! ### What reading gives -/

/-- Whatever a decoder reads has a property. -/
def Gives (decode : Decoder α) (p : α → Prop) : Prop :=
  ∀ json a, decode json = .ok a → p a

/-- Whatever a reader takes has a property. -/
def FieldReader.Gives (reader : FieldReader α) (p : α → Prop) : Prop :=
  ∀ members a, reader members = .ok a → p a

namespace FieldReader

variable {p : α → Prop} {q : β → Prop}

/-- A function and its argument are both taken. -/
theorem seq_eq_ok {f : FieldReader (α → β)} {x : FieldReader α} {b : β}
    (h : FieldReader.seq f x members = .ok b) :
    ∃ g a, f members = .ok g ∧ x members = .ok a ∧ g a = b := by
  unfold FieldReader.seq at h
  split at h
  · rename_i g a hf hx
    cases h
    exact ⟨g, a, hf, hx, rfl⟩
  all_goals cases h

/-- A function is handed an argument with a property. -/
theorem Gives.map {x : FieldReader α} {f : α → β} (hx : x.Gives p) (hf : ∀ a, p a → q (f a)) :
    Gives (f <$> x) q := by
  intro members b h
  obtain ⟨g, a, hg, ha, rfl⟩ := seq_eq_ok h
  cases hg
  exact hf a (hx members a ha)

/-- What a function has of any argument it has of one that is taken. -/
theorem Gives.map_any {x : FieldReader α} {f : α → β} (hf : ∀ a, q (f a)) : Gives (f <$> x) q :=
  Gives.map (p := fun _ => True) (fun _ _ _ => trivial) fun a _ => hf a

/-- A function that has been taken is handed an argument with a property. -/
theorem Gives.seq {f : FieldReader (α → β)} {x : FieldReader α}
    (hf : f.Gives fun g => ∀ a, p a → q (g a)) (hx : x.Gives p) : Gives (f <*> x) q := by
  intro members b h
  obtain ⟨g, a, hg, ha, rfl⟩ := seq_eq_ok h
  exact hf members g hg a (hx members a ha)

/-- A function that has been taken is handed any argument. -/
theorem Gives.seq_any {f : FieldReader (α → β)} {x : FieldReader α}
    (hf : ∀ a, f.Gives fun g => q (g a)) : Gives (f <*> x) q :=
  Gives.seq (p := fun _ => True) (fun members g hg a _ => hf a members g hg) fun _ _ _ => trivial

end FieldReader

variable {p : α → Prop} {q : β → Prop}

/-- A member has what its decoder sees to, if a field without one has it too. -/
theorem gives_member {missing : Except ReadError α} (hdecode : Gives decode p)
    (hmissing : ∀ a, missing = .ok a → p a) : (member name decode missing).Gives p := by
  intro members a h
  unfold member at h
  split at h
  · exact hmissing a (ok_of_mapError h)
  · split at h
    · cases h
    · rename_i hread _
      cases h
      exact hdecode _ _ hread
    · cases h

/-- A field with a default that has the property. -/
theorem gives_withDefault {default : α} (hdecode : Gives decode p) (hdefault : p default) :
    (withDefault name decode default).Gives p :=
  gives_member hdecode fun a ha => by
    cases ha
    exact hdefault

/-- A field that has to be there. -/
theorem gives_required (hdecode : Gives decode p) : (required name decode).Gives p :=
  gives_member hdecode fun a ha => by cases ha

/-- A field that may be left out. -/
theorem gives_optional (hdecode : Gives decode p) :
    (optional name decode).Gives fun o => ∀ a ∈ o, p a := by
  refine gives_withDefault (fun json o h => ?_) fun a ha => by cases ha
  unfold nullable at h
  split at h
  · cases h
    exact fun a ha => by cases ha
  · obtain ⟨a, hread, rfl⟩ := map_eq_ok_iff.1 h
    rintro b ⟨⟩
    exact hdecode _ _ hread

/-- A record has what its fields see to, whether it is written as an object or an array. -/
theorem gives_record {names : List String} {fields : FieldReader α} (h : fields.Gives p) :
    Gives (record names fields) p := by
  intro json a hread
  unfold record at hread
  split at hread
  · exact h _ a (ok_of_mapError hread)
  · split at hread <;> cases hread
  · split at hread
    · cases hread
    · rename_i hfields
      split at hread
      · cases hread
        exact h _ _ hfields
      · cases hread
  · cases hread

/-- What passes a check has what the check sees to. -/
theorem gives_checked {check : α → Except ReadError β} (hdecode : Gives decode p)
    (hcheck : ∀ a b, p a → check a = .ok b → q b) : Gives (checked decode check) q := by
  intro json b h
  obtain ⟨a, hread, hb⟩ := bind_eq_ok_iff.1 h
  exact hcheck a b (hdecode json a hread) hb

/-- What is made of what has been read has what its making sees to. -/
theorem gives_checked_id {decode : Decoder (Except ReadError α)}
    (h : Gives decode fun made => ∀ a, made = .ok a → p a) : Gives (checked decode id) p :=
  gives_checked h fun _ a hmade ha => hmade a ha

/-- Every item of an array has what the decoder of items sees to. -/
theorem gives_list (hdecode : Gives decode p) :
    Gives (list decode) fun values => ∀ a ∈ values, p a := by
  intro json values h
  unfold list at h
  split at h
  · rename_i written
    induction written generalizing values with
    | nil =>
      cases h
      simp
    | cons json rest ih =>
      rw [items] at h
      split at h
      · cases h
      · rename_i a hread
        obtain ⟨others, hothers, rfl⟩ := map_eq_ok_iff.1 h
        exact List.forall_mem_cons.2 ⟨hdecode json a hread, ih others hothers⟩
  · cases h

/-- A number is read within its bounds. -/
theorem gives_integerIn (lowest highest : Int) :
    Gives (integerIn lowest highest) fun n => lowest ≤ n ∧ n ≤ highest := by
  intro json n h
  unfold integerIn at h
  split at h
  · split at h
    · rename_i hbounds
      cases h
      exact hbounds
    · cases h
  · cases h

/-- A number of 32 bits is read. -/
theorem gives_int32 : Gives int32 FitsHalf :=
  fun json n h => (gives_integerIn _ _ json n h).imp_right Int.lt_of_le_sub_one

/-- A number of 64 bits is read. -/
theorem gives_int64 : Gives int64 fun n => fitsWord n = true := by
  intro json n h
  have hbounds := gives_integerIn _ _ json n h
  simp only [fitsWord, Bool.and_eq_true, decide_eq_true_eq]
  exact hbounds.imp_right Int.lt_of_le_sub_one

end JourneyPlanner.Json
