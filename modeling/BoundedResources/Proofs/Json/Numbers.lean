import BoundedResources.Json.Document
import BoundedResources.Json.Printer
import BoundedResources.Proofs.Text.Encoding

/-!
# Whole numbers that are written are read

A whole number is written with its digits in front of whatever comes next, a comma or a bracket or
nothing. None of these goes on with a number, so the digits are taken as they stand, and since no
number is written with a zero in front of others, they are a numeral. It is read as the number that
its digits spell (`numeral_nat`, `numeral_neg`) as long as that fits a word.
-/

set_option autoImplicit false

namespace BoundedResources.Json

/-! ## Digits -/

namespace Numeral

/-- Some digits are those of a number as it is written. -/
structure Spells (ds : List Nat) (n : Nat) : Prop where
  digits : ∀ d ∈ ds, d < 10
  value : ofDigits ds = n
  nonempty : ds ≠ []
  /-- A zero is in front only if it stands alone. -/
  leading : ds.head? = some 0 → ds = [0]

theorem Spells.head_ne_zero {ds : List Nat} {n : Nat} (h : Spells ds n) (hn : 0 < n) :
    ds.head? ≠ some 0 := by
  intro hzero
  have hvalue := h.value
  rw [h.leading hzero] at hvalue
  exact absurd hvalue.symm (Nat.ne_of_gt hn)

/-- The digits of a number spell it. The induction takes the last one off. -/
theorem spells_toDigits (n : Nat) :
    ∃ ds, Nat.toDigits 10 n = ds.map Nat.digitChar ∧ Spells ds n := by
  induction n using Nat.strongRecOn with
  | ind n ih =>
    by_cases hn : n < 10
    · refine ⟨[n], Nat.toDigits_of_lt_base hn, ?_, ?_, List.cons_ne_nil _ _, ?_⟩
      · simpa using hn
      · simp [ofDigits]
      · intro hzero
        rw [Option.some.inj hzero]
    · obtain ⟨ds, htext, hds⟩ := ih (n / 10) (by omega)
      have hfirst := hds.head_ne_zero (by omega)
      refine ⟨ds ++ [n % 10], ?_, ?_, ?_, by simp, ?_⟩
      · rw [Nat.toDigits_of_base_le (by decide) (Nat.le_of_not_lt hn), htext, List.map_append]
        rfl
      · intro d hd
        rcases List.mem_append.mp hd with hd | hd
        · exact hds.digits d hd
        · rw [List.mem_singleton.mp hd]
          exact Nat.mod_lt _ (by decide)
      · have hsnoc : ofDigits (ds ++ [n % 10]) = ofDigits ds * 10 + n % 10 := by
          simp only [ofDigits, List.foldl_append, List.foldl_cons, List.foldl_nil]
        rw [hsnoc, hds.value]
        omega
      · intro hzero
        obtain ⟨d, ds, rfl⟩ := List.exists_cons_of_ne_nil hds.nonempty
        exact absurd hzero hfirst

end Numeral

namespace Document

theorem digit?_digitChar :
    ∀ d < 10, (String.utf8EncodeChar (Nat.digitChar d)).map digit? = [some d] := by
  decide

/-- What can follow a value: the end of the text, a comma or a closing bracket. -/
def EndsValue (rest : List UInt8) : Prop := ∀ b ∈ rest.head?, b = 0x2C ∨ b = 0x5D ∨ b = 0x7D

theorem digits_of_endsValue {rest : List UInt8} (h : EndsValue rest) : digits rest = ([], rest) := by
  cases rest with
  | nil => rfl
  | cons b rest =>
    have hb : digit? b = none := by
      rcases h b rfl with rfl | rfl | rfl
      · rfl
      · rfl
      · rfl
    rw [digits, hb]

/-- Reading digits goes on to the end of the number and leaves what follows. -/
theorem digits_append {ds : List Nat} (hds : ∀ d ∈ ds, d < 10) {rest : List UInt8}
    (hrest : EndsValue rest) : digits (utf8 (ds.map Nat.digitChar) ++ rest) = (ds, rest) := by
  induction ds with
  | nil => exact digits_of_endsValue hrest
  | cons d ds ih =>
    obtain ⟨hd, hds⟩ := List.forall_mem_cons.mp hds
    obtain ⟨b, hb, hdigit⟩ := List.map_eq_singleton_iff.mp (digit?_digitChar d hd)
    rw [List.map_cons, utf8_cons, hb, List.append_assoc, List.singleton_append, digits, hdigit,
      ih hds]

/-! ## Numerals -/

theorem afterWhole_of_endsValue (n : Numeral) {rest : List UInt8} (h : EndsValue rest) :
    afterWhole n rest = ofNumeral n rest := by
  cases rest with
  | nil => rfl
  | cons b rest =>
    rcases h b rfl with rfl | rfl | rfl
    · rfl
    · rfl
    · rfl

/-- **Digits that were written are read as one numeral**, whatever can follow them. -/
theorem numeral_toDigits (negative : Bool) (n : Nat) {rest : List UInt8} (hrest : EndsValue rest) :
    ∃ ds, Numeral.ofDigits ds = n ∧
      numeral negative (utf8 (Nat.toDigits 10 n) ++ rest) =
        ofNumeral ⟨negative, ds, none, none⟩ rest := by
  obtain ⟨ds, htext, hds⟩ := Numeral.spells_toDigits n
  refine ⟨ds, hds.value, ?_⟩
  rw [htext, numeral, digits_append hds.digits hrest, ← afterWhole_of_endsValue _ hrest]
  match ds, hds with
  | [], hds => exact absurd rfl hds.nonempty
  | 0 :: _ :: _, hds => exact absurd (hds.leading rfl) (by simp)
  | [0], _ | (_ + 1) :: _, _ => rfl

theorem numeral_nat {n : Nat} (hn : n ≤ Numeral.maxWord) {rest : List UInt8}
    (hrest : EndsValue rest) :
    numeral false (utf8 (Nat.toDigits 10 n) ++ rest) = (.number (.integer n), some rest) := by
  obtain ⟨ds, rfl, hnumeral⟩ := numeral_toDigits false n hrest
  rw [hnumeral, ofNumeral, Numeral.value?]
  simp [Nat.not_lt.mpr hn]

/-- The sign has been read already. The digits may spell one more than the largest positive number
of a signed word. -/
theorem numeral_neg {n : Nat} (hpos : 0 < n) (hn : n ≤ 9_223_372_036_854_775_808)
    {rest : List UInt8} (hrest : EndsValue rest) :
    numeral true (utf8 (Nat.toDigits 10 n) ++ rest) = (.number (.integer (-n)), some rest) := by
  obtain ⟨ds, rfl, hnumeral⟩ := numeral_toDigits true n hrest
  have hword : ¬ Numeral.maxWord < Numeral.ofDigits ds := by
    unfold Numeral.maxWord
    omega
  rw [hnumeral, ofNumeral, Numeral.value?]
  simp [hword, hpos, hn]

end Document

end BoundedResources.Json
