import Mathlib.Data.List.Find
import Mathlib.Data.List.Nodup
import BoundedResources.Limiter.Limit

/-!
# Where headers come from

The headers of a request can be handed to a rulebook in three forms, and each form has a lookup of
its own. A rulebook asks for the names of its bans and of the rule for the path, in lower case
whatever it spells itself, and so it cannot tell two forms apart that answer alike for these names
(`Rulebook.limit_congr`).

**`Rulebook.limit_by_source`** compares the forms for a request with proper headers. The pairs and
the header map of HTTP never differ, since both compare names without regard to case. A map is
searched for the name as it stands, and so it hides every header that is not spelled in lower case:
it is as good as the pairs without these headers, and it is as good as all pairs for every rulebook
and path exactly if there are none. A banned client gets through by writing a capital letter
(`Rulebook.ban_by_source`).
-/

set_option autoImplicit false

namespace BoundedResources

namespace Headers

/-! ## Names -/

/-- A letter in upper case becomes one in lower case, and every other character stays. -/
theorem toLower_cases (c : Char) :
    c.toLower = c ∨ c.isUpper = true ∧ c.toLower.isLower = true ∧ c.toLower.isUpper = false := by
  by_cases hupper : c.val ≥ 'A'.val ∧ c.val ≤ 'Z'.val
  · have hval : c.toLower.val = c.val + 32 := by
      show (dite _ _ _ : Char).val = _
      rw [dif_pos hupper]
      rfl
    have hfirst : 65 ≤ c.val.toNat := UInt32.le_iff_toNat_le.mp hupper.1
    have hlast : c.val.toNat ≤ 90 := UInt32.le_iff_toNat_le.mp hupper.2
    have hnat : c.toLower.val.toNat = c.val.toNat + 32 := by
      rw [hval, UInt32.toNat_add]
      exact Nat.mod_eq_of_lt (show c.val.toNat + 32 < 4_294_967_296 by omega)
    refine .inr ⟨decide_eq_true hupper, ?_, decide_eq_false ?_⟩
    · refine (Bool.and_eq_true _ _).mpr ⟨decide_eq_true ?_, decide_eq_true ?_⟩
      · exact UInt32.le_iff_toNat_le.mpr (show 97 ≤ c.toLower.val.toNat by omega)
      · exact UInt32.le_iff_toNat_le.mpr (show c.toLower.val.toNat ≤ 122 by omega)
    · rintro ⟨-, hle⟩
      have hle : c.toLower.val.toNat ≤ 90 := UInt32.le_iff_toNat_le.mp hle
      omega
  · exact .inl (dif_neg hupper)

theorem toList_toLower (text : String) : text.toLower.toList = text.toList.map Char.toLower :=
  String.toList_map

theorem toLower_toLower (name : String) : name.toLower.toLower = name.toLower := by
  apply String.toList_injective
  rw [toList_toLower, toList_toLower, List.map_map]
  refine List.map_congr_left fun c _ => ?_
  show c.toLower.toLower = c.toLower
  rcases toLower_cases c with hsame | ⟨-, -, hnot⟩
  · exact congrArg Char.toLower hsame
  · rcases toLower_cases c.toLower with hsame | ⟨hupper, -⟩
    · exact hsame
    · rw [hnot] at hupper
      cases hupper

theorem isNameChar_toLower (c : Char) : isNameChar c.toLower = isNameChar c := by
  have halpha (c : Char) : c.isAlpha = (c.isUpper || c.isLower) := rfl
  rcases toLower_cases c with hsame | ⟨hupper, hlower, -⟩
  · rw [hsame]
  · simp [isNameChar, Char.isAlphanum, halpha, hupper, hlower]

/-- Whether a text is the name of a header does not depend on its case. -/
theorem isName_toLower (name : String) : isName name.toLower = isName name := by
  have hempty : name.toLower.isEmpty = name.isEmpty := by
    rw [Bool.eq_iff_iff, String.isEmpty_iff, String.isEmpty_iff, ← String.toList_eq_nil_iff,
      ← String.toList_eq_nil_iff, toList_toLower, List.map_eq_nil_iff]
  have hchars : name.toLower.toList.all isNameChar = name.toList.all isNameChar := by
    rw [toList_toLower, List.all_map]
    exact congrArg _ (funext isNameChar_toLower)
  rw [isName, isName, hempty, hchars]

/-! ## Three lookups -/

/-- Headers as a request can have them: no two names are the same but for case, and the values can
be read. -/
structure Proper (list : List (String × String)) : Prop where
  name : ∀ p ∈ list, isName p.1 = true
  value : ∀ p ∈ list, p.2.toList.all isVisible = true
  distinct : (list.map fun p => p.1.toLower).Nodup

/-- The headers whose names are spelled in lower case. -/
def inLowerCase (list : List (String × String)) : List (String × String) :=
  list.filter fun p => p.1.toLower = p.1

variable {list : List (String × String)}

theorem Proper.sublist {list' : List (String × String)} (h : Proper list)
    (hsub : list'.Sublist list) : Proper list' :=
  ⟨fun p hp => h.name p (hsub.subset hp), fun p hp => h.value p (hsub.subset hp),
    h.distinct.sublist (hsub.map _)⟩

theorem Proper.eq_of_name (h : Proper list) {p q : String × String} (hp : p ∈ list) (hq : q ∈ list)
    (hname : p.1.toLower = q.1.toLower) : p = q :=
  List.inj_on_of_nodup_map h.distinct hp hq hname

/-- A search finds what there is to find, if that is one thing at most. -/
theorem find?_eq_some_iff_of_unique {α : Type} {l : List α} {P : α → Bool}
    (hunique : ∀ p ∈ l, ∀ q ∈ l, P p = true → P q = true → p = q) (p : α) :
    l.find? P = some p ↔ p ∈ l ∧ P p = true := by
  constructor
  · intro hfind
    exact ⟨List.mem_of_find?_eq_some hfind, List.find?_some hfind⟩
  · rintro ⟨hp, hP⟩
    cases hfind : l.find? P with
    | none => exact absurd hP (List.find?_eq_none.mp hfind p hp)
    | some q =>
      rw [hunique q (List.mem_of_find?_eq_some hfind) p hp (List.find?_some hfind) hP]

theorem get?_pairs_eq_some_iff (h : Proper list) (name value : String) :
    (Headers.pairs list).get? name = some value ↔
      ∃ p ∈ list, p.1.toLower = name.toLower ∧ p.2 = value := by
  have hunique : ∀ p ∈ list, ∀ q ∈ list, (p.1.toLower == name.toLower) = true →
      (q.1.toLower == name.toLower) = true → p = q := by
    intro p hp q hq hpname hqname
    rw [beq_iff_eq] at hpname hqname
    exact h.eq_of_name hp hq (hpname.trans hqname.symm)
  simp only [get?, ignoringCase, Option.map_eq_some_iff, find?_eq_some_iff_of_unique hunique,
    beq_iff_eq, and_assoc]

theorem get?_map_eq_some_iff (h : Proper list) (name value : String) :
    (Headers.map list).get? name = some value ↔ (name, value) ∈ list := by
  have hunique : ∀ p ∈ list.reverse, ∀ q ∈ list.reverse, (p.1 == name) = true →
      (q.1 == name) = true → p = q := by
    intro p hp q hq hpname hqname
    rw [beq_iff_eq] at hpname hqname
    exact h.eq_of_name (List.mem_reverse.mp hp) (List.mem_reverse.mp hq) (by rw [hpname, hqname])
  simp only [get?, Option.map_eq_some_iff, find?_eq_some_iff_of_unique hunique, List.mem_reverse,
    beq_iff_eq]
  constructor
  · rintro ⟨p, ⟨hp, rfl⟩, rfl⟩
    exact hp
  · intro hmem
    exact ⟨_, ⟨hmem, rfl⟩, rfl⟩

/-- Names that are not valid do not occur, and no value is unreadable. -/
theorem get?_http (h : Proper list) (name : String) :
    (Headers.http list).get? name = (Headers.pairs list).get? name := by
  have hfound := get?_pairs_eq_some_iff h name
  simp only [get?] at hfound ⊢
  split
  · cases hvalue : ignoringCase list name with
    | none => rfl
    | some value =>
      obtain ⟨p, hp, -, rfl⟩ := (hfound value).mp hvalue
      simp [Option.filter, h.value p hp]
  · rename_i hname
    symm
    rw [Option.eq_none_iff_forall_ne_some]
    intro value hvalue
    obtain ⟨p, hp, hsame, -⟩ := (hfound value).mp hvalue
    apply hname
    rw [← isName_toLower, ← hsame, isName_toLower]
    exact h.name p hp

/-- A map is searched for a name in lower case as the pairs are that spell their names so. -/
theorem get?_map (h : Proper list) (name : String) :
    (Headers.map list).get? name.toLower = (Headers.pairs (inLowerCase list)).get? name.toLower := by
  have hlow : Proper (inLowerCase list) := h.sublist List.filter_sublist
  apply Option.ext
  intro value
  rw [get?_map_eq_some_iff h, get?_pairs_eq_some_iff hlow, toLower_toLower]
  constructor
  · intro hmem
    have hcase : (name.toLower, value) ∈ inLowerCase list :=
      List.mem_filter.mpr ⟨hmem, decide_eq_true (toLower_toLower name)⟩
    exact ⟨_, hcase, toLower_toLower name, rfl⟩
  · rintro ⟨p, hp, hname, rfl⟩
    obtain ⟨hp, hcase⟩ := List.mem_filter.mp hp
    rw [← hname, of_decide_eq_true hcase]
    exact hp

end Headers

/-! ## What a rulebook asks for -/

/-- Two requests have the same to say of some names in lower case. -/
def Headers.AgreeOn (names : List String) (h h' : Headers) : Prop :=
  ∀ name ∈ names, h.get? name.toLower = h'.get? name.toLower

theorem PathRule.limit_congr {r : PathRule} {h h' : Headers} (hsame : h.AgreeOn r.headers h')
    (path : String) : r.limit path h = r.limit path h' := by
  have hkey : r.key h = r.key h' := by
    unfold key values
    rw [List.filterMap_congr fun name hname => by rw [hsame name hname]]
  unfold limit
  rw [hkey]

/-- The names of the headers that are looked up for a path: those of the bans and of the rule. -/
def Rulebook.asked (b : Rulebook) (path : String) : List String :=
  b.bans.map (·.header) ++ ((b.ruleFor path).map (·.headers)).getD []

/-- **What a request says of other names does not matter.** -/
theorem Rulebook.limit_congr {b : Rulebook} {path : String} {h h' : Headers}
    (hsame : h.AgreeOn (b.asked path) h') : b.limit path h = b.limit path h' := by
  have hbans : b.bans.find? (·.hits h) = b.bans.find? (·.hits h') := by
    refine List.find?_congr fun ban hban => ?_
    have hheader : ban.header ∈ b.asked path :=
      List.mem_append_left _ (List.mem_map_of_mem hban)
    rw [HeaderBan.hits, hsame _ hheader, HeaderBan.hits]
  unfold limit
  rw [hbans]
  split
  · rfl
  · split
    · rfl
    · split
      · rfl
      · rename_i r hrule
        refine PathRule.limit_congr (fun name hname => hsame name ?_) path
        rw [asked, hrule]
        exact List.mem_append_right _ hname

namespace Rulebook

/-- The rulebook that bans one value of one header. -/
def banning (p : String × String) : Rulebook := empty.addBan ⟨p.1, p.2⟩

theorem limit_banning (p : String × String) (path : String) (h : Headers) :
    (banning p).limit path h =
      if h.get? p.1.toLower = some p.2 then .blocked (HeaderBan.message ⟨p.1, p.2⟩)
      else .unlimited := by
  have hopen : (banning p).disabled = false := rfl
  have hbans : (banning p).bans = [⟨p.1, p.2⟩] := rfl
  have hrule : (banning p).ruleFor path = none := rfl
  by_cases hhit : h.get? p.1.toLower = some p.2
  · simp [limit, hopen, hbans, HeaderBan.hits, hhit]
  · simp [limit, hopen, hbans, HeaderBan.hits, hhit, hrule]

/-! ## One request in three forms -/

/-- **Pairs and HTTP headers are limited alike, and a map as the pairs that are spelled in lower
case.** -/
theorem limit_by_source {list : List (String × String)} (h : Headers.Proper list) :
    (∀ (b : Rulebook) (path : String), b.limit path (.http list) = b.limit path (.pairs list)) ∧
    (∀ (b : Rulebook) (path : String),
      b.limit path (.map list) = b.limit path (.pairs (Headers.inLowerCase list))) ∧
    ((∀ (b : Rulebook) (path : String), b.limit path (.map list) = b.limit path (.pairs list)) ↔
      ∀ p ∈ list, p.1.toLower = p.1) := by
  have hmap (b : Rulebook) (path : String) :
      b.limit path (.map list) = b.limit path (.pairs (Headers.inLowerCase list)) :=
    limit_congr fun name _ => Headers.get?_map h name
  refine ⟨fun b path => limit_congr fun name _ => Headers.get?_http h _, hmap, ?_, ?_⟩
  · intro hsame p hp
    have hlow : Headers.Proper (Headers.inLowerCase list) := h.sublist List.filter_sublist
    -- The rulebook that bans this very header tells whether the map still has it.
    have hpairs : (Headers.pairs list).get? p.1.toLower = some p.2 :=
      (Headers.get?_pairs_eq_some_iff h _ _).mpr ⟨p, hp, (Headers.toLower_toLower _).symm, rfl⟩
    have hlimit := hsame (banning p) ""
    rw [hmap, limit_banning, limit_banning, if_pos hpairs] at hlimit
    split at hlimit
    · rename_i hfound
      obtain ⟨q, hq, hname, -⟩ := (Headers.get?_pairs_eq_some_iff hlow _ _).mp hfound
      obtain ⟨hq, hcase⟩ := List.mem_filter.mp hq
      obtain rfl := h.eq_of_name hq hp (hname.trans (Headers.toLower_toLower _))
      exact of_decide_eq_true hcase
    · cases hlimit
  · intro hcase b path
    rw [hmap, Headers.inLowerCase, List.filter_eq_self.mpr fun p hp => by simpa using hcase p hp]

theorem toLower_client_id : "Client-Id".toLower = "client-id" := by
  apply String.toList_injective
  rw [Headers.toList_toLower]
  rfl

theorem toLower_user_id : "user-id".toLower = "user-id" := by
  apply String.toList_injective
  rw [Headers.toList_toLower]
  rfl

/-- A request with two headers of which one has capital letters: in the form of a map it is limited
as if it had the other one only, and some rulebook tells it from the pairs. -/
theorem limit_by_source_capitals :
    let list := [("user-id", "u"), ("Client-Id", "bad")]
    Headers.Proper list ∧
      (∀ (b : Rulebook) (path : String), b.limit path (.http list) = b.limit path (.pairs list)) ∧
      (∀ (b : Rulebook) (path : String),
        b.limit path (.map list) = b.limit path (.pairs [("user-id", "u")])) ∧
      ¬ ∀ (b : Rulebook) (path : String),
        b.limit path (.map list) = b.limit path (.pairs list) := by
  intro list
  have hproper : Headers.Proper list := by
    refine ⟨by decide +kernel, by decide +kernel, ?_⟩
    simp [list, toLower_client_id, toLower_user_id]
  obtain ⟨hhttp, hmap, hall⟩ := limit_by_source hproper
  have hlow : Headers.inLowerCase list = [("user-id", "u")] := by
    simp [Headers.inLowerCase, list, toLower_client_id, toLower_user_id]
  refine ⟨hproper, hhttp, fun b path => hlow ▸ hmap b path, fun hsame => ?_⟩
  have hcase : "Client-Id".toLower = "Client-Id" :=
    hall.mp hsame ("Client-Id", "bad") (by simp [list])
  simp [toLower_client_id] at hcase

/-- A ban on a client that writes the name of the header with capital letters: it is found among
pairs and among the headers of HTTP, and not in a map. -/
theorem ban_by_source :
    let b := banning ("Client-Id", "bad")
    let list := [("Client-Id", "bad")]
    Headers.Proper list ∧
      b.limit "/x" (.pairs list) = .blocked "client-id 'bad' is blocked" ∧
      b.limit "/x" (.http list) = .blocked "client-id 'bad' is blocked" ∧
      b.limit "/x" (.map list) = .unlimited := by
  intro b list
  have hproper : Headers.Proper list :=
    ⟨by decide +kernel, by decide +kernel, List.nodup_singleton _⟩
  have hmessage : HeaderBan.message ⟨"Client-Id", "bad"⟩ = "client-id 'bad' is blocked" := by
    simp only [HeaderBan.message, toLower_client_id]
    decide +kernel
  have hpairs : (Headers.pairs list).get? "Client-Id".toLower = some "bad" :=
    (Headers.get?_pairs_eq_some_iff hproper _ _).mpr
      ⟨("Client-Id", "bad"), by simp [list], (Headers.toLower_toLower _).symm, rfl⟩
  have hmap : (Headers.map list).get? "Client-Id".toLower = none := by
    simp [Headers.get?, list, toLower_client_id]
  refine ⟨hproper, ?_, ?_, ?_⟩
  · rw [limit_banning, if_pos hpairs, hmessage]
  · rw [limit_banning, if_pos ((Headers.get?_http hproper _).trans hpairs), hmessage]
  · rw [limit_banning, hmap, if_neg (by simp)]

end Rulebook

end BoundedResources
