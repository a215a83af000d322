import BoundedResources.Proofs.Json.Roundtrip

/-!
# Values of any kind are read back

Reading builds an object member by member and keeps the members in the order of their keys. So
whatever is read is in order and no deeper than the reader may go (`Document.orderly_of_toValue`),
and whatever is in order and not too deep is what reading its document builds
(`Document.toValue_document`). With the roundtrip of texts this is **`decode_value`**: the text of
such a value is read as the value.
-/

set_option autoImplicit false

namespace BoundedResources.Json

/-! ## Order and nesting -/

namespace Value

mutual

/-- The members of all objects in a value are in the order of their keys, and no key occurs
twice. -/
def IsOrdered : Value → Prop
  | .null | .bool _ | .number _ | .string _ => True
  | .array items => AreOrdered items
  | .object members => members.Pairwise (fun m m' => m.1 < m'.1) ∧ MembersAreOrdered members

def AreOrdered : List Value → Prop
  | [] => True
  | v :: rest => v.IsOrdered ∧ AreOrdered rest

def MembersAreOrdered : List (String × Value) → Prop
  | [] => True
  | (_, v) :: rest => v.IsOrdered ∧ MembersAreOrdered rest

end

mutual

/-- How many arrays and objects are nested in a value. -/
def nesting : Value → Nat
  | .null | .bool _ | .number _ | .string _ => 0
  | .array items => nestingOfAll items + 1
  | .object members => nestingOfMembers members + 1

def nestingOfAll : List Value → Nat
  | [] => 0
  | v :: rest => max v.nesting (nestingOfAll rest)

def nestingOfMembers : List (String × Value) → Nat
  | [] => 0
  | (_, v) :: rest => max v.nesting (nestingOfMembers rest)

end

/-- A value is in order, and not nested deeper than is allowed. -/
def Orderly (depth : Nat) (v : Value) : Prop := v.IsOrdered ∧ v.nesting ≤ depth

variable {depth : Nat} {key : String} {v : Value} {items : List Value}
  {members : List (String × Value)}

theorem orderly_array (h : ∀ v ∈ items, v.Orderly depth) :
    (array items).Orderly (depth + 1) := by
  suffices hitems : AreOrdered items ∧ nestingOfAll items ≤ depth from
    ⟨hitems.1, Nat.succ_le_succ hitems.2⟩
  induction items with
  | nil => exact ⟨trivial, Nat.zero_le _⟩
  | cons v rest ih =>
    obtain ⟨hv, hrest⟩ := List.forall_mem_cons.mp h
    obtain ⟨hordered, hnesting⟩ := ih hrest
    exact ⟨⟨hv.1, hordered⟩, Nat.max_le.mpr ⟨hv.2, hnesting⟩⟩

theorem orderly_object (horder : members.Pairwise fun m m' => m.1 < m'.1)
    (h : ∀ m ∈ members, m.2.Orderly depth) : (object members).Orderly (depth + 1) := by
  suffices hmembers : MembersAreOrdered members ∧ nestingOfMembers members ≤ depth from
    ⟨⟨horder, hmembers.1⟩, Nat.succ_le_succ hmembers.2⟩
  clear horder
  induction members with
  | nil => exact ⟨trivial, Nat.zero_le _⟩
  | cons m rest ih =>
    obtain ⟨hm, hrest⟩ := List.forall_mem_cons.mp h
    obtain ⟨hordered, hnesting⟩ := ih hrest
    exact ⟨⟨hm.1, hordered⟩, Nat.max_le.mpr ⟨hm.2, hnesting⟩⟩

/-! ## Putting members in -/

/-- A key that comes after all others goes to the end. -/
theorem insert_last (h : ∀ m ∈ members, m.1 < key) (v : Value) :
    insert key v members = members ++ [(key, v)] := by
  induction members with
  | nil => rfl
  | cons m rest ih =>
    obtain ⟨k, w⟩ := m
    obtain ⟨hk, hrest⟩ := List.forall_mem_cons.mp h
    have hne : key ≠ k := by
      rintro rfl
      exact String.lt_irrefl _ hk
    rw [insert, if_neg hne, if_neg (String.lt_asymm hk), ih hrest, List.cons_append]

theorem mem_insert {m : String × Value} (h : m ∈ insert key v members) :
    m = (key, v) ∨ m ∈ members := by
  induction members with
  | nil => exact .inl (List.mem_singleton.mp h)
  | cons m' rest ih =>
    obtain ⟨k, w⟩ := m'
    rw [insert] at h
    split at h
    · exact (List.mem_cons.mp h).imp_right (List.mem_cons_of_mem _)
    · split at h
      · exact List.mem_cons.mp h
      · rcases List.mem_cons.mp h with rfl | hrest
        · exact .inr List.mem_cons_self
        · exact (ih hrest).imp_right (List.mem_cons_of_mem _)

/-- Putting a member in keeps the order, and takes the place of a member with the same key. -/
theorem pairwise_insert (h : members.Pairwise fun m m' => m.1 < m'.1) (key : String) (v : Value) :
    (insert key v members).Pairwise fun m m' => m.1 < m'.1 := by
  induction members with
  | nil => exact List.pairwise_singleton _ _
  | cons m rest ih =>
    obtain ⟨k, w⟩ := m
    obtain ⟨hk, hrest⟩ := List.pairwise_cons.mp h
    rw [insert]
    split
    · rename_i hkey
      subst hkey
      exact List.pairwise_cons.mpr ⟨hk, hrest⟩
    · rename_i hne
      split
      · rename_i hbefore
        refine List.pairwise_cons.mpr ⟨?_, h⟩
        intro m hm
        rcases List.mem_cons.mp hm with rfl | hm
        · exact hbefore
        · exact String.lt_trans hbefore (hk m hm)
      · rename_i hbehind
        refine List.pairwise_cons.mpr ⟨?_, ih hrest⟩
        intro m hm
        rcases mem_insert hm with rfl | hm
        · exact Std.lt_of_le_of_ne (String.not_lt.mp hbehind) (Ne.symm hne)
        · exact hk m hm

end Value

theorem bind_eq_ok {α β : Type} {x : Except Fault α} {f : α → Except Fault β} {b : β}
    (h : x >>= f = .ok b) : ∃ a, x = .ok a ∧ f a = .ok b := by
  cases x with
  | error fault => cases h
  | ok a => exact ⟨a, rfl, h⟩

namespace Document

open Value

/-! ## From a value -/

mutual

/-- **Reading the document of a value gives the value.** -/
theorem toValue_document (v : Value) (hv : v.IsOrdered) {depth : Nat} (hdepth : v.nesting ≤ depth) :
    v.document.toValue depth = .ok v := by
  match v, hv with
  | .null, _ => rfl
  | .bool _, _ => rfl
  | .number _, _ => rfl
  | .string _, _ => rfl
  | .array items, hitems =>
    obtain ⟨depth, rfl⟩ : ∃ d, depth = d + 1 := ⟨depth - 1, by rw [nesting] at hdepth; omega⟩
    rw [document, toValue, toValues_documents items hitems (Nat.le_of_succ_le_succ hdepth)]
    rfl
  | .object members, ⟨horder, hmembers⟩ =>
    obtain ⟨depth, rfl⟩ : ∃ d, depth = d + 1 := ⟨depth - 1, by rw [nesting] at hdepth; omega⟩
    have hread := toMembers_documents [] members hmembers horder (Nat.le_of_succ_le_succ hdepth)
    rw [document, toValue, hread]
    rfl

theorem toValues_documents (items : List Value) (hitems : AreOrdered items) {depth : Nat}
    (hdepth : nestingOfAll items ≤ depth) : toValues depth (documents items) = .ok items := by
  match items, hitems with
  | [], _ => rfl
  | v :: rest, ⟨hv, hrest⟩ =>
    rw [nestingOfAll, Nat.max_le] at hdepth
    rw [documents, toValues, toValue_document v hv hdepth.1,
      toValues_documents rest hrest hdepth.2]
    rfl

theorem toMembers_documents (before members : List (String × Value))
    (hmembers : MembersAreOrdered members)
    (horder : (before ++ members).Pairwise fun m m' => m.1 < m'.1) {depth : Nat}
    (hdepth : nestingOfMembers members ≤ depth) :
    toMembers depth before (memberDocuments members) = .ok (before ++ members) := by
  match members, hmembers with
  | [], _ => rw [memberDocuments, toMembers, List.append_nil]
  | (key, v) :: rest, ⟨hv, hrest⟩ =>
    -- all members so far have smaller keys, so the next one goes to the end
    rw [nestingOfMembers, Nat.max_le] at hdepth
    have hlast : ∀ m ∈ before, m.1 < key := fun m hm =>
      (List.pairwise_append.mp horder).2.2 m hm (key, v) List.mem_cons_self
    rw [← List.singleton_append, ← List.append_assoc] at horder
    have hread := toMembers_documents (before ++ [(key, v)]) rest hrest horder hdepth.2
    rw [memberDocuments, toMembers, toValue_document v hv hdepth.1]
    simp only [bind, Except.bind]
    rw [insert_last hlast, hread, List.append_assoc, List.singleton_append]

end

/-! ## To a value -/

mutual

/-- **What is read is in order and no deeper than the reader may go.** -/
theorem orderly_of_toValue (d : Document) {depth : Nat} {v : Value}
    (h : d.toValue depth = .ok v) : v.Orderly depth := by
  match d, depth with
  | .null, _ | .bool _, _ | .number _, _ | .string _, _ =>
    rw [toValue] at h
    cases h
    exact ⟨trivial, Nat.zero_le _⟩
  | .array _ _, 0 | .object _ _, 0 =>
    rw [toValue] at h
    cases h
  | .array items ending, depth + 1 =>
    rw [toValue] at h
    obtain ⟨values, hvalues, h⟩ := bind_eq_ok h
    obtain ⟨_, -, h⟩ := bind_eq_ok h
    cases h
    exact orderly_array (orderly_of_toValues items hvalues)
  | .object members ending, depth + 1 =>
    rw [toValue] at h
    obtain ⟨values, hvalues, h⟩ := bind_eq_ok h
    obtain ⟨_, -, h⟩ := bind_eq_ok h
    cases h
    obtain ⟨horder, hall⟩ := orderly_of_toMembers members List.Pairwise.nil
      (fun m hm => nomatch hm) hvalues
    exact orderly_object horder hall
  | .unreadable _, _ | .broken _ _, _ =>
    rw [toValue] at h
    cases h

theorem orderly_of_toValues (items : List Document) {depth : Nat} {values : List Value}
    (h : toValues depth items = .ok values) : ∀ v ∈ values, v.Orderly depth := by
  match items with
  | [] =>
    rw [toValues] at h
    cases h
    exact fun v hv => nomatch hv
  | d :: rest =>
    rw [toValues] at h
    obtain ⟨v, hv, h⟩ := bind_eq_ok h
    obtain ⟨vs, hvs, h⟩ := bind_eq_ok h
    cases h
    exact List.forall_mem_cons.mpr ⟨orderly_of_toValue d hv, orderly_of_toValues rest hvs⟩

theorem orderly_of_toMembers (members : List (Except Fault String × Document)) {depth : Nat}
    {before values : List (String × Value)} (horder : before.Pairwise fun m m' => m.1 < m'.1)
    (hbefore : ∀ m ∈ before, m.2.Orderly depth) (h : toMembers depth before members = .ok values) :
    values.Pairwise (fun m m' => m.1 < m'.1) ∧ ∀ m ∈ values, m.2.Orderly depth := by
  match members with
  | [] =>
    rw [toMembers] at h
    cases h
    exact ⟨horder, hbefore⟩
  | (key, d) :: rest =>
    rw [toMembers] at h
    obtain ⟨key, -, h⟩ := bind_eq_ok h
    obtain ⟨v, hv, h⟩ := bind_eq_ok h
    refine orderly_of_toMembers rest (pairwise_insert horder key v) (fun m hm => ?_) h
    rcases mem_insert hm with rfl | hm
    · exact orderly_of_toValue d hv
    · exact hbefore m hm

end

end Document

/-- **The text of a value of whole numbers is read as the value exactly if** its objects are in order
and it is not nested too deeply. -/
theorem decode_value_iff {v : Value} (hwhole : v.IsWhole) :
    decode Reader.value v.text.toUTF8.data.toList = .ok v ↔ v.Orderly maxDepth := by
  rw [decode_text Reader.value hwhole]
  exact ⟨Document.orderly_of_toValue v.document, fun hv => Document.toValue_document v hv.1 hv.2⟩

theorem decode_value {v : Value} (hwhole : v.IsWhole) (hv : v.Orderly maxDepth) :
    decode Reader.value v.text.toUTF8.data.toList = .ok v :=
  (decode_value_iff hwhole).mpr hv

/-! ## Records -/

namespace Field

variable {σ : Type} {P : σ → Prop} {fields : List (Field σ)} {depth : Nat} {part part' : σ}

end Field

end BoundedResources.Json
