import BoundedResources.Json.Document
import BoundedResources.Json.Printer
import BoundedResources.Proofs.Text.Encoding

/-!
# Strings that are written are read

A string is written character by character and gone through byte by byte. Between two characters
whoever goes through it has the bytes so far and nothing else (`Partial.collected`): no half of a
surrogate pair waits, since the only characters that are written as numbers are control characters.
What is collected up to the closing quote is the text (`scan_string`).
-/

set_option autoImplicit false

namespace BoundedResources.Json

namespace Document

/-- What has been collected of a string in which nothing went wrong. -/
def Partial.collected (bytes : List UInt8) : Partial := ⟨bytes.reverse, none, none⟩

theorem Partial.push_collected (bytes : List UInt8) (b : UInt8) :
    (collected bytes).push b = collected (bytes ++ [b]) := by
  simp [push, unpaired, collected]

theorem Partial.pushChar_collected (bytes : List UInt8) (c : Char) :
    (collected bytes).pushChar c = collected (bytes ++ String.utf8EncodeChar c) := by
  simp [pushChar, collected]

/-- The number of a character below the surrogates is taken for the character. -/
theorem Partial.pushWord_collected (bytes : List UInt8) {c : Char} (hc : c.toNat < 0xD800) :
    (collected bytes).pushWord c.toNat = collected (bytes ++ String.utf8EncodeChar c) := by
  have hhigh : ¬ (0xD800 ≤ c.toNat ∧ c.toNat ≤ 0xDBFF) := by omega
  have hlow : ¬ (0xDC00 ≤ c.toNat ∧ c.toNat ≤ 0xDFFF) := by omega
  have hword : (collected bytes).pushWord c.toNat =
      (collected bytes).pushChar (Char.ofNat c.toNat) := by
    simp only [pushWord, collected, if_neg hhigh, if_neg hlow]
  rw [hword, Char.ofNat_toNat, pushChar_collected]

/-! ## Bytes that stand for themselves -/

/-- A byte that stands for itself in a string. -/
def IsPlain (b : UInt8) : Prop := b ≠ 0x22 ∧ b ≠ 0x5C ∧ 0x20 ≤ b

theorem scan_plain {b : UInt8} (hb : IsPlain b) (bytes rest : List UInt8) :
    scan (.collected bytes) (b :: rest) = scan (.collected (bytes ++ [b])) rest := by
  obtain ⟨hquote, hbackslash, hcontrol⟩ := hb
  have hvisible : ¬ b < 0x20 := UInt8.not_lt.mpr hcontrol
  rw [scan, if_neg hvisible, Partial.push_collected]
  · exact hquote
  · exact fun h => absurd h hbackslash
  · exact fun _ _ _ _ _ h => absurd h hbackslash
  · exact fun _ h => absurd h hbackslash
  · exact fun _ _ h => absurd h hbackslash

theorem scan_plain_append {plain : List UInt8} (hplain : ∀ b ∈ plain, IsPlain b)
    (bytes rest : List UInt8) :
    scan (.collected bytes) (plain ++ rest) = scan (.collected (bytes ++ plain)) rest := by
  induction plain generalizing bytes with
  | nil => rw [List.append_nil, List.nil_append]
  | cons b plain ih =>
    obtain ⟨hb, hrest⟩ := List.forall_mem_cons.mp hplain
    rw [List.cons_append, scan_plain hb, ih hrest, List.append_assoc, List.singleton_append]

/-- A character stands for itself if it is neither a quote, a backslash nor a control character:
none of its bytes is one then. -/
theorem isPlain_of_mem {c : Char} {b : UInt8} (hquote : c ≠ '"') (hbackslash : c ≠ '\\')
    (hcontrol : 0x20 ≤ c.toNat) (hb : b ∈ String.utf8EncodeChar c) : IsPlain b := by
  have hquote' : c.toNat ≠ 0x22 := fun h => hquote (Char.toNat_inj.mp h)
  have hbackslash' : c.toNat ≠ 0x5C := fun h => hbackslash (Char.toNat_inj.mp h)
  have hbyte := ascii_or_beyond hb
  refine ⟨?_, ?_, UInt8.le_iff_toNat_le.mpr ?_⟩
  · rintro rfl
    rw [show (0x22 : UInt8).toNat = 0x22 from rfl] at hbyte
    omega
  · rintro rfl
    rw [show (0x5C : UInt8).toNat = 0x5C from rfl] at hbyte
    omega
  · rw [show (0x20 : UInt8).toNat = 0x20 from rfl]
    omega

/-! ## Escaped characters -/

/-- A character with a letter of its own. -/
theorem scan_letter {c e : Char} {letter b : UInt8} (he : String.utf8EncodeChar e = [letter])
    (hc : String.utf8EncodeChar c = [b]) (hescape : escape? letter = some b)
    (hletter : letter ≠ 0x75) (bytes rest : List UInt8) :
    scan (.collected bytes) (utf8 ['\\', e] ++ rest) =
      scan (.collected (bytes ++ String.utf8EncodeChar c)) rest := by
  have hbytes : utf8 ['\\', e] ++ rest = 0x5C :: letter :: rest := by
    rw [utf8_cons, utf8_cons, he]
    rfl
  rw [hbytes, hc, scan]
  · simp only [hescape, Partial.push_collected]
  · exact fun _ _ _ _ _ h => absurd h hletter
  · exact hletter

theorem hexDigit?_digitChar :
    ∀ n < 16, (String.utf8EncodeChar (Nat.digitChar n)).map hexDigit? = [some n] := by
  decide

/-- A character that is written as its number. -/
theorem scan_number {c : Char} (hc : c.toNat < 0x20) (bytes rest : List UInt8) :
    scan (.collected bytes)
        (utf8 ['\\', 'u', '0', '0', Nat.digitChar (c.toNat / 16), Nat.digitChar (c.toNat % 16)] ++
          rest) =
      scan (.collected (bytes ++ String.utf8EncodeChar c)) rest := by
  obtain ⟨high, hhigh, hhigh'⟩ :=
    List.map_eq_singleton_iff.mp (hexDigit?_digitChar (c.toNat / 16) (by omega))
  obtain ⟨low, hlow, hlow'⟩ :=
    List.map_eq_singleton_iff.mp (hexDigit?_digitChar (c.toNat % 16) (by omega))
  have hbytes : utf8 ['\\', 'u', '0', '0', Nat.digitChar (c.toNat / 16),
      Nat.digitChar (c.toNat % 16)] ++ rest =
        0x5C :: 0x75 :: 0x30 :: 0x30 :: high :: low :: rest := by
    rw [utf8_cons, utf8_cons, utf8_cons, utf8_cons, utf8_cons, utf8_cons, hhigh, hlow]
    rfl
  have hzero : hexDigit? 0x30 = some 0 := rfl
  have hword : hexWord? 0x30 0x30 high low = some c.toNat := by
    simp only [hexWord?, hzero, hhigh', hlow', Option.some.injEq]
    omega
  rw [hbytes, scan, hword]
  exact congrArg (scan · rest) (Partial.pushWord_collected bytes (by omega))

/-- However a character is written, it is collected with its own bytes. -/
theorem scan_escaped (c : Char) (bytes rest : List UInt8) :
    scan (.collected bytes) (utf8 (Printer.escaped c) ++ rest) =
      scan (.collected (bytes ++ String.utf8EncodeChar c)) rest := by
  unfold Printer.escaped
  -- Seven characters have a letter.
  iterate 7
    split
    · rename_i h
      subst h
      exact scan_letter rfl rfl rfl (by decide) bytes rest
  split
  · rename_i hcontrol
    exact scan_number hcontrol bytes rest
  · rename_i hquote hbackslash _ _ _ _ _ hcontrol
    rw [utf8_cons, utf8_nil, List.append_nil]
    exact scan_plain_append
      (fun b hb => isPlain_of_mem hquote hbackslash (Nat.le_of_not_lt hcontrol) hb) bytes rest

/-! ## Strings -/

theorem scan_text (cs : List Char) (bytes rest : List UInt8) :
    scan (.collected bytes) (utf8 (cs.flatMap Printer.escaped) ++ rest) =
      scan (.collected (bytes ++ utf8 cs)) rest := by
  induction cs generalizing bytes with
  | nil => rw [utf8_nil, List.append_nil]; rfl
  | cons c cs ih =>
    rw [List.flatMap_cons, utf8_append, List.append_assoc, scan_escaped, ih, utf8_cons,
      List.append_assoc]

theorem Partial.text_collected (s : String) : (collected (utf8 s.toList)).text = .ok s := by
  simp only [text, unpaired, collected, List.reverse_reverse, fromUTF8?_utf8]

/-- **A text that was written in quotes is read as the same text.** -/
theorem scan_string (s : String) (rest : List UInt8) :
    scan .empty (utf8 (s.toList.flatMap Printer.escaped) ++ 0x22 :: rest) =
      .complete (.ok s) rest := by
  have hcollected := scan_text s.toList [] (0x22 :: rest)
  rw [List.nil_append] at hcollected
  refine hcollected.trans ?_
  rw [scan, Partial.text_collected]

end Document

end BoundedResources.Json
