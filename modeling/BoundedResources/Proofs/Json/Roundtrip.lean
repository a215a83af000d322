import BoundedResources.Json.Reader
import BoundedResources.Proofs.Json.Numbers
import BoundedResources.Proofs.Json.Strings

/-!
# Values that are written are read

The text of a value stands for one document, and the value says which (`Value.document`). Going
through the text gives this document and leaves what follows the text, if the numbers in it are
whole and fit a word (`Value.IsWhole`); doubles are left out. Values, lists of items and lists of
members call each other in the printer and in the parser alike, and so do the three parts of
`parseValue_value`. Each call takes at least a byte, so the length of the text bounds their depth.

Whoever reads a text that was written therefore has the document of its value to look at and
nothing else (`decode_text`).
-/

set_option autoImplicit false

namespace BoundedResources.Json

/-! ## The document of a value -/

namespace Value

mutual

/-- The document that the text of a value stands for. -/
def document : Value → Document
  | .null => .null
  | .bool b => .bool b
  | .number n => .number n
  | .string s => .string s
  | .array items => .array (documents items) .closed
  | .object members => .object (memberDocuments members) .closed

/-- The documents of some items. -/
def documents : List Value → List Document
  | [] => []
  | v :: rest => v.document :: documents rest

/-- The documents of some members. -/
def memberDocuments : List (String × Value) → List (Except Fault String × Document)
  | [] => []
  | (key, v) :: rest => (.ok key, v.document) :: memberDocuments rest

end

mutual

/-- The numbers of a value are whole and fit a 64-bit word, signed if they are negative. -/
def IsWhole : Value → Prop
  | .null | .bool _ | .string _ => True
  | .number (.integer n) =>
    -9_223_372_036_854_775_808 ≤ n ∧ n ≤ 18_446_744_073_709_551_615
  | .number (.real _) => False
  | .array items => AreWhole items
  | .object members => MembersAreWhole members

def AreWhole : List Value → Prop
  | [] => True
  | v :: rest => v.IsWhole ∧ AreWhole rest

def MembersAreWhole : List (String × Value) → Prop
  | [] => True
  | (_, v) :: rest => v.IsWhole ∧ MembersAreWhole rest

end

theorem areWhole_map {α : Type} {write : α → Value} (h : ∀ a, (write a).IsWhole) (l : List α) :
    AreWhole (l.map write) := by
  induction l with
  | nil => exact trivial
  | cons a l ih => exact ⟨h a, ih⟩

theorem isWhole_nat {n : Nat} (h : n < 18_446_744_073_709_551_616) : (nat n).IsWhole := by
  constructor <;> omega

theorem isWhole_optional {α : Type} {write : α → Value} (h : ∀ a, (write a).IsWhole)
    (o : Option α) : (optional write o).IsWhole := by
  cases o with
  | none => exact trivial
  | some a => exact h a

end Value

/-! ## Lists in text -/

namespace Printer

/-- A comma in front of all but the first of some items or members. -/
def comma (first : Bool) : List Char := if first then [] else [',']

/-- Items from the first one on, or from behind another one on. -/
def itemsFrom : Bool → List Value → List Char
  | _, [] => []
  | first, v :: rest => comma first ++ value v ++ itemsFrom false rest

/-- Members from the first one on, or from behind another one on. -/
def membersFrom : Bool → List (String × Value) → List Char
  | _, [] => []
  | first, (key, v) :: rest =>
    comma first ++ string key ++ ':' :: value v ++ membersFrom false rest

/-- The printer puts commas between items. They are read in front of all items but the first. -/
theorem itemList_eq (items : List Value) : itemList items = itemsFrom true items := by
  match items with
  | [] => rfl
  | [v] => simp [itemList, itemsFrom, comma]
  | v :: w :: rest =>
    have ih := itemList_eq (w :: rest)
    simp [itemList, itemsFrom, comma, ih]

theorem memberList_eq (members : List (String × Value)) :
    memberList members = membersFrom true members := by
  match members with
  | [] => rfl
  | [(key, v)] => simp [memberList, membersFrom, comma]
  | (key, v) :: m :: rest =>
    have ih := memberList_eq (m :: rest)
    simp [memberList, membersFrom, comma, ih]

end Printer

namespace Document

/-! ## Numbers and strings -/

theorem ne_of_digit {b other : UInt8} (hb : (digit? b).isSome) (hother : digit? other = none) :
    b ≠ other := by
  rintro rfl
  rw [hother] at hb
  cases hb

theorem isBlank_of_digit {b : UInt8} (hb : (digit? b).isSome) : isBlank b = false := by
  have hspace : b ≠ 0x20 := ne_of_digit hb rfl
  have hfeed : b ≠ 0x0A := ne_of_digit hb rfl
  have hreturn : b ≠ 0x0D := ne_of_digit hb rfl
  have htab : b ≠ 0x09 := ne_of_digit hb rfl
  simp [isBlank, hspace, hfeed, hreturn, htab]

theorem skipBlanks_cons {b : UInt8} (hb : isBlank b = false) (rest : List UInt8) :
    skipBlanks (b :: rest) = b :: rest := by
  rw [skipBlanks, hb]
  rfl

theorem exists_first_digit (n : Nat) :
    ∃ b rest, utf8 (Nat.toDigits 10 n) = b :: rest ∧ (digit? b).isSome := by
  obtain ⟨ds, htext, hds⟩ := Numeral.spells_toDigits n
  obtain ⟨d, ds, rfl⟩ := List.exists_cons_of_ne_nil hds.nonempty
  obtain ⟨b, hb, hdigit⟩ :=
    List.map_eq_singleton_iff.mp (digit?_digitChar d (hds.digits d List.mem_cons_self))
  refine ⟨b, utf8 (ds.map Nat.digitChar), ?_, by rw [hdigit]; rfl⟩
  rw [htext, List.map_cons, utf8_cons, hb, List.singleton_append]

theorem parseValue_digit {b : UInt8} (hb : (digit? b).isSome) (fuel : Nat) (rest : List UInt8) :
    parseValue (fuel + 1) (b :: rest) = numeral false (b :: rest) := by
  rw [parseValue, skipBlanks_cons (isBlank_of_digit hb)]
  dsimp only
  rw [if_neg (ne_of_digit hb rfl), if_neg (ne_of_digit hb rfl), if_neg (ne_of_digit hb rfl),
    if_neg (ne_of_digit hb rfl), if_neg (ne_of_digit hb rfl), if_neg (ne_of_digit hb rfl),
    if_neg (ne_of_digit hb rfl), if_pos hb]

theorem number_ofNat (n : Nat) : Printer.number (.integer (.ofNat n)) = Nat.toDigits 10 n :=
  Nat.toList_repr

theorem number_negSucc (n : Nat) :
    Printer.number (.integer (.negSucc n)) = '-' :: Nat.toDigits 10 (n + 1) := by
  show ("-" ++ (n + 1).repr).toList = _
  rw [String.toList_append, Nat.toList_repr]
  rfl

/-- Going through a whole number takes its digits, and its sign if there is one. -/
theorem parseValue_number {n : Number} (hn : (Value.number n).IsWhole) (fuel : Nat)
    {rest : List UInt8} (hrest : EndsValue rest) :
    parseValue (fuel + 1) (utf8 (Printer.number n) ++ rest) = (.number n, some rest) := by
  match n, hn with
  | .integer (.ofNat n), hn =>
    obtain ⟨b, text, htext, hb⟩ := exists_first_digit n
    have hword : n ≤ Numeral.maxWord := Int.ofNat_le.mp hn.2
    have hnumeral := numeral_nat hword hrest
    rw [number_ofNat, htext, List.cons_append, parseValue_digit hb, ← List.cons_append, ← htext,
      hnumeral]
    rfl
  | .integer (.negSucc n), hn =>
    have hbound : n + 1 ≤ 9_223_372_036_854_775_808 := by
      have hmin := hn.1
      omega
    rw [number_negSucc]
    exact numeral_neg (Nat.succ_pos n) hbound hrest

theorem utf8_string (s : String) (rest : List UInt8) :
    utf8 (Printer.string s) ++ rest =
      0x22 :: (utf8 (s.toList.flatMap Printer.escaped) ++ 0x22 :: rest) := by
  rw [Printer.string, List.cons_append, utf8_cons, utf8_append, List.append_assoc,
    List.append_assoc]
  rfl

theorem parseValue_string (fuel : Nat) (s : String) (rest : List UInt8) :
    parseValue (fuel + 1) (utf8 (Printer.string s) ++ rest) = (.string s, some rest) := by
  rw [utf8_string, parseValue, skipBlanks_cons rfl]
  dsimp only
  rw [if_pos rfl, scan_string]

/-! ## Items and members one by one -/

/-- A text begins with something that a value can begin with. -/
def StartsValue (text : List UInt8) : Prop :=
  ∃ b rest, text = b :: rest ∧ isBlank b = false ∧ b ≠ 0x5D

theorem StartsValue.append {text : List UInt8} (h : StartsValue text) (rest : List UInt8) :
    StartsValue (text ++ rest) := by
  obtain ⟨b, text, rfl, hb⟩ := h
  exact ⟨b, text ++ rest, rfl, hb⟩

theorem startsValue_number {n : Number} (hn : (Value.number n).IsWhole) :
    StartsValue (utf8 (Printer.number n)) := by
  match n, hn with
  | .integer (.ofNat n), _ =>
    obtain ⟨b, rest, htext, hb⟩ := exists_first_digit n
    rw [number_ofNat]
    exact ⟨b, rest, htext, isBlank_of_digit hb, ne_of_digit hb rfl⟩
  | .integer (.negSucc n), _ =>
    rw [number_negSucc]
    exact ⟨0x2D, _, rfl, by decide⟩

/-- The text of a value begins with a quote, a bracket, a sign, a digit or a letter. -/
theorem startsValue_value {v : Value} (hv : v.IsWhole) : StartsValue (utf8 (Printer.value v)) := by
  match v, hv with
  | .null, _ => exact ⟨0x6E, _, rfl, by decide⟩
  | .bool true, _ => exact ⟨0x74, _, rfl, by decide⟩
  | .bool false, _ => exact ⟨0x66, _, rfl, by decide⟩
  | .number n, hn => exact startsValue_number hn
  | .string s, _ => exact ⟨0x22, _, rfl, by decide⟩
  | .array _, _ => exact ⟨0x5B, _, rfl, by decide⟩
  | .object _, _ => exact ⟨0x7B, _, rfl, by decide⟩

/-- An item is read with the comma in front of it, and the others after it. -/
theorem parseItems_cons (first : Bool) {fuel : Nat} {text rest : List UInt8} {d : Document}
    (hstarts : StartsValue text) (hd : parseValue fuel text = (d, some rest)) :
    parseItems (fuel + 1) first (utf8 (Printer.comma first) ++ text) =
      let (items, ending, rest) := parseItems fuel false rest
      (d :: items, ending, rest) := by
  cases first with
  | true =>
    obtain ⟨b, tail, rfl, hblank, hbracket⟩ := hstarts
    show parseItems (fuel + 1) true (b :: tail) = _
    rw [parseItems, skipBlanks_cons hblank]
    dsimp only
    rw [if_neg hbracket, if_pos rfl, hd]
  | false =>
    show parseItems (fuel + 1) false (0x2C :: text) = _
    rw [parseItems, skipBlanks_cons rfl]
    dsimp only
    rw [if_neg (by decide), if_neg (by decide), if_pos rfl, hd]

/-- A member is read with the comma in front of it, and the others after it. -/
theorem parseMembers_cons (first : Bool) {fuel : Nat} {text rest : List UInt8} {d : Document}
    (key : String) (hd : parseValue fuel text = (d, some rest)) :
    parseMembers (fuel + 1) first
        (utf8 (Printer.comma first) ++ (utf8 (Printer.string key) ++ 0x3A :: text)) =
      let (members, ending, rest) := parseMembers fuel false rest
      ((.ok key, d) :: members, ending, rest) := by
  have hcolon : colon (0x3A :: text) = .ok text := rfl
  rw [utf8_string]
  cases first with
  | true =>
    show parseMembers (fuel + 1) true (0x22 :: _) = _
    rw [parseMembers, skipBlanks_cons rfl]
    dsimp only
    rw [if_neg (by decide), if_pos rfl, skipBlanks_cons rfl]
    simp only [scan_string, hcolon, hd]
  | false =>
    show parseMembers (fuel + 1) false (0x2C :: 0x22 :: _) = _
    rw [parseMembers, skipBlanks_cons rfl]
    dsimp only
    rw [if_neg (by decide), if_neg (by decide), if_pos rfl, skipBlanks_cons rfl]
    simp only [scan_string, hcolon, hd]

/-! ## Values -/

theorem length_value_pos {v : Value} (hv : v.IsWhole) : 0 < (utf8 (Printer.value v)).length := by
  obtain ⟨b, text, htext, -⟩ := startsValue_value hv
  rw [htext]
  exact Nat.succ_pos _

theorem endsValue_itemsFrom (items : List Value) (rest : List UInt8) :
    EndsValue (utf8 (Printer.itemsFrom false items) ++ 0x5D :: rest) := by
  cases items with
  | nil => exact fun b hb => .inr (.inl (Option.some.inj hb).symm)
  | cons v items => exact fun b hb => .inl (Option.some.inj hb).symm

theorem endsValue_membersFrom (members : List (String × Value)) (rest : List UInt8) :
    EndsValue (utf8 (Printer.membersFrom false members) ++ 0x7D :: rest) := by
  cases members with
  | nil => exact fun b hb => .inr (.inr (Option.some.inj hb).symm)
  | cons m members => exact fun b hb => .inl (Option.some.inj hb).symm

mutual

/-- **Going through the text of a value gives the document of the value.** -/
theorem parseValue_value (v : Value) (hv : v.IsWhole) {fuel : Nat}
    (hfuel : (utf8 (Printer.value v)).length ≤ fuel) {rest : List UInt8} (hrest : EndsValue rest) :
    parseValue fuel (utf8 (Printer.value v) ++ rest) = (v.document, some rest) := by
  have hpos := length_value_pos hv
  obtain ⟨fuel, rfl⟩ : ∃ f, fuel = f + 1 := ⟨fuel - 1, by omega⟩
  match v, hv with
  | .null, _ => rfl
  | .bool true, _ => rfl
  | .bool false, _ => rfl
  | .number n, hn => exact parseValue_number hn fuel hrest
  | .string s, _ => exact parseValue_string fuel s rest
  | .array items, hitems =>
    have htext : utf8 (Printer.value (.array items)) =
        0x5B :: (utf8 (Printer.itemsFrom true items) ++ [0x5D]) := by
      rw [Printer.value, Printer.itemList_eq, List.cons_append, utf8_cons, utf8_append]
      rfl
    rw [htext, List.length_cons, List.length_append] at hfuel
    have hparse := parseItems_items true items hitems (Nat.le_of_succ_le_succ hfuel) rest
    rw [htext, List.cons_append, List.append_assoc, List.singleton_append, parseValue,
      skipBlanks_cons rfl]
    dsimp only
    rw [if_neg (by decide), if_pos rfl, hparse]
    rfl
  | .object members, hmembers =>
    have htext : utf8 (Printer.value (.object members)) =
        0x7B :: (utf8 (Printer.membersFrom true members) ++ [0x7D]) := by
      rw [Printer.value, Printer.memberList_eq, List.cons_append, utf8_cons, utf8_append]
      rfl
    rw [htext, List.length_cons, List.length_append] at hfuel
    have hparse := parseMembers_members true members hmembers (Nat.le_of_succ_le_succ hfuel) rest
    rw [htext, List.cons_append, List.append_assoc, List.singleton_append, parseValue,
      skipBlanks_cons rfl]
    dsimp only
    rw [if_neg (by decide), if_neg (by decide), if_pos rfl, hparse]
    rfl

theorem parseItems_items (first : Bool) (items : List Value) (hitems : Value.AreWhole items)
    {fuel : Nat} (hfuel : (utf8 (Printer.itemsFrom first items)).length < fuel)
    (rest : List UInt8) :
    parseItems fuel first (utf8 (Printer.itemsFrom first items) ++ 0x5D :: rest) =
      (Value.documents items, .closed, some rest) := by
  obtain ⟨fuel, rfl⟩ : ∃ f, fuel = f + 1 := ⟨fuel - 1, by omega⟩
  match items, hitems with
  | [], _ => rfl
  | v :: items, ⟨hv, hitems⟩ =>
    have hpos := length_value_pos hv
    rw [Printer.itemsFrom, utf8_append, utf8_append, List.length_append, List.length_append]
      at hfuel
    have hfirst : parseValue fuel _ = _ :=
      parseValue_value v hv (by omega) (endsValue_itemsFrom items rest)
    have hrest : parseItems fuel false _ = _ := parseItems_items false items hitems (by omega) rest
    rw [Printer.itemsFrom, utf8_append, utf8_append, List.append_assoc, List.append_assoc,
      parseItems_cons first ((startsValue_value hv).append _) hfirst, hrest]
    rfl

theorem parseMembers_members (first : Bool) (members : List (String × Value))
    (hmembers : Value.MembersAreWhole members) {fuel : Nat}
    (hfuel : (utf8 (Printer.membersFrom first members)).length < fuel) (rest : List UInt8) :
    parseMembers fuel first (utf8 (Printer.membersFrom first members) ++ 0x7D :: rest) =
      (Value.memberDocuments members, .closed, some rest) := by
  obtain ⟨fuel, rfl⟩ : ∃ f, fuel = f + 1 := ⟨fuel - 1, by omega⟩
  match members, hmembers with
  | [], _ => rfl
  | (key, v) :: members, ⟨hv, hmembers⟩ =>
    have htext : utf8 (Printer.membersFrom first ((key, v) :: members)) =
        utf8 (Printer.comma first) ++ (utf8 (Printer.string key) ++ 0x3A ::
          (utf8 (Printer.value v) ++ utf8 (Printer.membersFrom false members))) := by
      rw [Printer.membersFrom, utf8_append, utf8_append, utf8_append, utf8_cons,
        List.append_assoc, List.append_assoc, List.append_assoc]
      rfl
    rw [htext, List.length_append, List.length_append, List.length_cons, List.length_append]
      at hfuel
    have hfirst : parseValue fuel _ = _ :=
      parseValue_value v hv (by omega) (endsValue_membersFrom members rest)
    have hrest : parseMembers fuel false _ = _ :=
      parseMembers_members false members hmembers (by omega) rest
    rw [htext, List.append_assoc, List.append_assoc, List.cons_append, List.append_assoc,
      parseMembers_cons first key hfirst, hrest]
    rfl

end

theorem parse_text {v : Value} (hv : v.IsWhole) :
    parse v.text.toUTF8.data.toList = (v.document, some []) := by
  have hrest : EndsValue [] := fun b hb => nomatch hb
  have hparse : parseValue (2 * (utf8 (Printer.value v)).length + 2) _ = _ :=
    parseValue_value v hv (by omega) hrest
  rw [List.append_nil] at hparse
  rw [Value.text, bytes_ofList, parse, hparse]

end Document

/-! ## Reading -/

/-- **Reading the text of a value is reading the document of the value.** -/
theorem decode_text {α : Type} (reader : Reader α) {v : Value} (hv : v.IsWhole) :
    decode reader v.text.toUTF8.data.toList = reader maxDepth v.document := by
  rw [decode, Document.parse_text hv]
  exact bind_pure _

namespace Reader

variable {α β : Type} {reader : Reader β} {write : α → Value} {f : α → β} {depth : Nat}

/-- Where `write` has written a value, the reader finds what `f` makes of it, if it is allowed some
nesting. -/
def ReadsBack (reader : Reader β) (depth : Nat) (write : α → Value) (f : α → β) : Prop :=
  ∀ a allowed, depth ≤ allowed → reader allowed (write a).document = .ok (f a)

theorem bool_readsBack : ReadsBack bool 0 Value.bool id := fun _ _ _ => rfl

theorem string_readsBack : ReadsBack string 0 Value.string id := fun _ _ _ => rfl

theorem word_readsBack {n : Nat} (hn : n < 18_446_744_073_709_551_616) (allowed : Nat) :
    word allowed (Value.nat n).document = .ok n := by
  have hrange : (0 : Int) ≤ n ∧ (n : Int) ≤ (18_446_744_073_709_551_615 : Nat) := by omega
  simp only [word, nat, int, Value.nat, Value.document]
  rw [if_pos hrange]
  rfl

theorem list_readsBack (h : ReadsBack reader depth write f) :
    ReadsBack (list reader) (depth + 1) (fun l => .array (l.map write)) (List.map f) := by
  intro l allowed hallowed
  obtain ⟨allowed, rfl⟩ : ∃ n, allowed = n + 1 := ⟨allowed - 1, by omega⟩
  have hitems (l : List α) :
      (Value.documents (l.map write)).mapM (reader allowed) = .ok (l.map f) := by
    induction l with
    | nil => rfl
    | cons a l ih =>
      rw [List.map_cons, Value.documents, List.mapM_cons, h a allowed (by omega), ih]
      rfl
  rw [Value.document, list, hitems]
  rfl

/-- What is there is not written as if it were absent. -/
theorem optional_readsBack (h : ReadsBack reader depth write f)
    (hwrite : ∀ a, (write a).document ≠ .null) :
    ReadsBack (optional reader) depth (Value.optional write) (Option.map f) := by
  intro o allowed hallowed
  cases o with
  | none => rfl
  | some a =>
    rw [Value.optional, optional]
    · rw [h a allowed hallowed]
      rfl
    · exact hwrite a

end Reader

/-! ## Records -/

namespace Field

variable {σ : Type} {fields : List (Field σ)} {depth : Nat}

/-- A member with the name of a field that was not there yet is read into this field. -/
theorem readMembers_cons {field : Field σ} {part : σ} {add : σ → σ} {key : String} {v : Value}
    (hfind : fields.find? (·.name == key) = some field) (hunset : field.isSet part = false)
    (hread : field.read depth v.document = .ok add) (rest : List (String × Value)) :
    readMembers fields depth part (Value.memberDocuments ((key, v) :: rest)) =
      readMembers fields depth (add part) (Value.memberDocuments rest) := by
  rw [Value.memberDocuments, readMembers]
  simp only [bind, Except.bind, hfind, hunset, hread]
  rfl

end Field

theorem Reader.record_object {σ α : Type} {fields : List (Field σ)} {start : σ}
    {finish : σ → Option α} {a : α} {depth : Nat} {members : List (String × Value)} (part : σ)
    (hmembers : Field.readMembers fields depth start (Value.memberDocuments members) = .ok part)
    (hfinish : finish part = some a) :
    Reader.record fields start finish (depth + 1) (Value.object members).document = .ok a := by
  rw [Value.document, Reader.record, hmembers]
  simp only [bind, Except.bind, Ending.read, hfinish]
  rfl

end BoundedResources.Json
