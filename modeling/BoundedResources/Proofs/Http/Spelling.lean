import BoundedResources.Http.Route
import BoundedResources.Limiter.Limit
import BoundedResources.Text.Percent
import BoundedResources.Proofs.Text.Encoding

/-!
# Spellings of a key

Two components read the path of a request. The handlers decode the segment that holds the key, so
that many paths lead to one key. The limiter compares the path with the beginnings that its rules
want, and takes it as it was sent. A client can therefore choose between rules by choosing how to
spell a key (`limits_of_two_spellings`).

**`limit_of_spellings`** says how far this goes. All rulebooks with certain beginnings give two
spellings limits of the same kind, key, quota and period exactly if the same beginning is the first
one to fit both. That is so if no beginning goes on where the key begins. A beginning that does, with
anything but a percent sign, can be escaped: whatever path of a key it fits, there is another
spelling of that key that it does not fit.
-/

set_option autoImplicit false

namespace BoundedResources

/-! ## Percent-encoding -/

namespace Percent

/-- A byte, spelled with its two digits. -/
def spelled (b : UInt8) : List Char :=
  ['%', Nat.digitChar (b.toNat / 16), Nat.digitChar (b.toNat % 16)]

theorem hexValue?_digitChar :
    ∀ n < 16, (String.utf8EncodeChar (Nat.digitChar n)).map hexValue? = [some n] := by
  decide

theorem digitChar_ne_slash : ∀ n < 16, Nat.digitChar n ≠ '/' := by
  decide

theorem decodeBytes_cons_ne {b : UInt8} (h : b ≠ 0x25) (rest : List UInt8) :
    decodeBytes (b :: rest) = b :: decodeBytes rest := by
  match rest with
  | [] | [_] | _ :: _ :: _ => simp [decodeBytes, h]

theorem decodeBytes_append {bs : List UInt8} (h : ∀ b ∈ bs, b ≠ 0x25) (rest : List UInt8) :
    decodeBytes (bs ++ rest) = bs ++ decodeBytes rest := by
  induction bs with
  | nil => rfl
  | cons b bs ih =>
    obtain ⟨hb, hbs⟩ := List.forall_mem_cons.mp h
    rw [List.cons_append, decodeBytes_cons_ne hb, ih hbs, List.cons_append]

theorem decodeBytes_spelled (b : UInt8) (rest : List UInt8) :
    decodeBytes ((spelled b).flatMap String.utf8EncodeChar ++ rest) = b :: decodeBytes rest := by
  have hbound : b.toNat < 256 := b.toNat_lt
  obtain ⟨high, hhigh, hhigh'⟩ :=
    List.map_eq_singleton_iff.mp (hexValue?_digitChar (b.toNat / 16) (by omega))
  obtain ⟨low, hlow, hlow'⟩ :=
    List.map_eq_singleton_iff.mp (hexValue?_digitChar (b.toNat % 16) (Nat.mod_lt _ (by omega)))
  have hpercent : String.utf8EncodeChar '%' = [0x25] := by decide
  simp [spelled, hpercent, hhigh, hlow, decodeBytes, hhigh', hlow', Nat.div_add_mod]

theorem decodeBytes_flatMap_spelled (bs rest : List UInt8) :
    decodeBytes ((bs.flatMap spelled).flatMap String.utf8EncodeChar ++ rest) =
      bs ++ decodeBytes rest := by
  induction bs with
  | nil => rfl
  | cons b bs ih =>
    rw [List.flatMap_cons, List.flatMap_append, List.append_assoc, decodeBytes_spelled, ih,
      List.cons_append]

/-- No byte of another character is that of a percent sign. -/
theorem ne_percent_of_mem {c : Char} (hc : c ≠ '%') :
    ∀ b ∈ String.utf8EncodeChar c, b ≠ 0x25 := by
  have hval : c.toNat ≠ 0x25 := fun h => hc (Char.toNat_inj.mp h)
  intro b hb heq
  have hbyte := ascii_or_beyond hb
  have hb37 : b.toNat = 0x25 := by rw [heq]; rfl
  omega

/-- A character, spelled byte by byte. -/
def spelling (c : Char) : List Char := (String.utf8EncodeChar c).flatMap spelled

theorem decode?_ofList (cs : List Char) :
    decode? (String.ofList cs) =
      String.fromUTF8? (decodeBytes (cs.flatMap String.utf8EncodeChar)).toByteArray := by
  rw [decode?, bytes_ofList]
  rfl

/-- Spelling a character does not change what a text stands for. -/
theorem decode?_spelling {c : Char} (hc : c ≠ '%') (rest : List Char) :
    decode? (String.ofList (spelling c ++ rest)) = decode? (String.ofList (c :: rest)) := by
  rw [decode?_ofList, decode?_ofList, spelling, List.flatMap_append, decodeBytes_flatMap_spelled,
    List.flatMap_cons, decodeBytes_append (ne_percent_of_mem hc)]

theorem head?_spelling (c : Char) (rest : List Char) :
    (spelling c ++ rest).head? = some '%' := by
  obtain ⟨b, bs, hbytes⟩ := List.exists_cons_of_ne_nil (String.utf8EncodeChar_ne_nil (c := c))
  simp [spelling, hbytes, spelled]

theorem no_slash_spelling (c : Char) : '/' ∉ spelling c := by
  unfold spelling
  simp only [List.mem_flatMap, not_exists, not_and]
  intro b _ hmem
  have hbound : b.toNat < 256 := b.toNat_lt
  have hhigh := digitChar_ne_slash (b.toNat / 16) (by omega)
  have hlow := digitChar_ne_slash (b.toNat % 16) (Nat.mod_lt _ (by omega))
  simp [spelled, hhigh.symm, hlow.symm] at hmem

end Percent

/-! ## The first rule that fits -/

/-- Two limits are of the same kind, and have key, quota and period in common. -/
def Limit.Alike : Limit → Limit → Prop
  | .unlimited, .unlimited => True
  | .blocked _, .blocked _ => True
  | .limited c, .limited c' =>
    c.key = c'.key ∧ c.allowance = c'.allowance ∧ c.period = c'.period
  | _, _ => False

theorem Limit.Alike.refl (l : Limit) : l.Alike l := by
  cases l with
  | unlimited | blocked => trivial
  | limited c => exact ⟨rfl, rfl, rfl⟩

/-- Whether a path begins in a certain way. -/
def begins (start path : String) : Bool := start.toList.isPrefixOf path.toList

/-- The position of the first beginning that fits a path. -/
def firstFit (starts : List String) (path : String) : Option Nat :=
  starts.findIdx? fun start => begins start path

/-- The rule of a path only depends on the beginning that fits first. -/
theorem Rulebook.ruleFor_eq (b : Rulebook) (path : String) :
    b.ruleFor path =
      ((firstFit (b.rules.map PathRule.pathStart) path).bind (b.rules[·]?)).or b.fallback := by
  rw [ruleFor, firstFit, List.findIdx?_map, List.find?_eq_bind_findIdx?_getElem?]
  rfl

/-- A rule gives all paths limits of the same kind, key, quota and period. -/
theorem PathRule.alike_limit (r : PathRule) (path path' : String) (h : Headers) :
    (r.limit path h).Alike (r.limit path' h) := by
  unfold limit
  cases r.quota with
  | unlimited | block => trivial
  | limit allowance => exact .refl _

theorem Rulebook.alike_of_firstFit {b : Rulebook} {path path' : String}
    (hfit : firstFit (b.rules.map PathRule.pathStart) path =
      firstFit (b.rules.map PathRule.pathStart) path') (h : Headers) :
    (b.limit path h).Alike (b.limit path' h) := by
  have hrule : b.ruleFor path = b.ruleFor path' := by
    rw [ruleFor_eq, ruleFor_eq, hfit]
  unfold Rulebook.limit
  rw [hrule]
  split
  · trivial
  · split
    · trivial
    · split
      · trivial
      · exact PathRule.alike_limit _ path path' h

/-- The rulebook that blocks the paths of one beginning, among others. -/
def Rulebook.blocking (starts : List String) (i : Nat) : Rulebook :=
  { Rulebook.empty with
    rules := starts.mapIdx fun j start =>
      ⟨start, [], if j = i then .block else .unlimited, .ofSecs 1, none⟩ }

theorem Rulebook.pathStart_blocking (starts : List String) (i : Nat) :
    (blocking starts i).rules.map PathRule.pathStart = starts := by
  apply List.ext_getElem?
  intro j
  simp only [blocking, List.getElem?_map, List.getElem?_mapIdx, Option.map_map]
  cases starts[j]? <;> rfl

theorem Rulebook.limit_blocking (starts : List String) (i : Nat) (path : String) (h : Headers) :
    (blocking starts i).limit path h =
      if firstFit starts path = some i then .blocked (path ++ " is blocked") else .unlimited := by
  have hrule := (blocking starts i).ruleFor_eq path
  rw [pathStart_blocking] at hrule
  have hopen : (blocking starts i).disabled = false := rfl
  have hbans : (blocking starts i).bans.find? (·.hits h) = none := rfl
  simp only [Rulebook.limit, hopen, hbans, hrule, Bool.false_eq_true, if_false]
  cases hfit : firstFit starts path with
  | none => rfl
  | some j =>
    obtain ⟨hj, -⟩ := List.findIdx?_eq_some_iff_getElem.mp hfit
    have hget : (blocking starts i).rules[j]? =
        some ⟨starts[j], [], if j = i then .block else .unlimited, .ofSecs 1, none⟩ := by
      simp [blocking, List.getElem?_mapIdx, List.getElem?_eq_getElem hj]
    by_cases hji : j = i
    · subst hji
      simp [hget, PathRule.limit]
    · simp [hget, hji, PathRule.limit]

/-- If two beginnings are the first to fit two paths, blocking one of them tells the paths apart. -/
theorem firstFit_of_alike {starts : List String} {path path' : String}
    (h : ∀ (b : Rulebook) (headers : Headers), b.rules.map PathRule.pathStart = starts →
      (b.limit path headers).Alike (b.limit path' headers)) :
    firstFit starts path = firstFit starts path' := by
  apply Option.ext
  intro i
  have halike := h (.blocking starts i) (.pairs []) (Rulebook.pathStart_blocking starts i)
  rw [Rulebook.limit_blocking, Rulebook.limit_blocking] at halike
  by_cases hfit : firstFit starts path = some i
  · by_cases hfit' : firstFit starts path' = some i
    · exact ⟨fun _ => hfit', fun _ => hfit⟩
    · simp [hfit, hfit', Limit.Alike] at halike
  · by_cases hfit' : firstFit starts path' = some i
    · simp [hfit, hfit', Limit.Alike] at halike
    · exact ⟨fun h => absurd h hfit, fun h => absurd h hfit'⟩

namespace Http

/-! ## Paths of a key -/

/-- What a request for a key, given in its path, can want. -/
inductive KeyUse where
  | read
  | delete

namespace KeyUse

/-- The segment in front of the key. -/
def name : KeyUse → String
  | .read => "get"
  | .delete => "del"

/-- What comes in front of the key. -/
def start (use : KeyUse) : String := "/" ++ use.name ++ "/"

/-- The route to the handler, with the key as it is spelled. -/
def route : KeyUse → String → Route
  | .read => .get
  | .delete => .delete

/-- A beginning goes on, with the character `c`, where the key begins. -/
def Reaches (use : KeyUse) (start : String) (c : Char) : Prop :=
  use.start.toList ++ [c] <+: start.toList

end KeyUse

/-- A path leads to the handler of a use and gives it a key. -/
def Spells (use : KeyUse) (key path : String) : Prop :=
  ∃ segment, Route.ofPath? path = some (use.route segment) ∧ Percent.decode? segment = some key

theorem ofSegments?_route {use : KeyUse} {l : List String} {segment : String} :
    Route.ofSegments? l = some (use.route segment) ↔ l = ["", use.name, segment] ∧ segment ≠ "" := by
  constructor
  · intro h
    unfold Route.ofSegments? at h
    cases use <;> split at h <;> simp_all [KeyUse.route, KeyUse.name] <;> exact h.2 ▸ h.1
  · rintro ⟨rfl, hne⟩
    cases use with
    | read => simp [Route.ofSegments?, KeyUse.route, KeyUse.name, hne]
    | delete => simp [Route.ofSegments?, KeyUse.route, KeyUse.name, hne]

/-- Exactly the paths with one segment behind the beginning lead to the handler. -/
theorem ofPath?_route {use : KeyUse} {path segment : String} :
    Route.ofPath? path = some (use.route segment) ↔
      path.toList = use.start.toList ++ segment.toList ∧ segment ≠ "" ∧ '/' ∉ segment.toList := by
  have hstart : use.start.toList ++ segment.toList =
      Text.joined [[], use.name.toList, segment.toList] := by
    simp [KeyUse.start, Text.joined]
  have hsegments : Text.segmentsOf path = ["", use.name, segment] ↔
      Text.segments path.toList = [[], use.name.toList, segment.toList] := by
    rw [Text.segmentsOf, show ["", use.name, segment] =
      [[], use.name.toList, segment.toList].map String.ofList by simp]
    exact List.map_inj_right fun _ _ => String.ofList_injective
  rw [Route.ofPath?, ofSegments?_route, hsegments, hstart]
  constructor
  · rintro ⟨hl, hne⟩
    have hmem : segment.toList ∈ Text.segments path.toList := by simp [hl]
    exact ⟨by rw [← hl, Text.joined_segments], hne, Text.no_slash_of_mem_segments hmem⟩
  · rintro ⟨hpath, hne, hslash⟩
    refine ⟨?_, hne⟩
    rw [hpath]
    refine Text.segments_joined (by simp) ?_
    have hname : '/' ∉ use.name.toList := by cases use <;> decide
    simp [hname, hslash]

/-- A beginning that does not reach into the key fits as well or badly for every key. -/
theorem begins_of_not_reaches {use : KeyUse} {start path : String} {rest : List Char}
    (hreach : ∀ c, ¬ use.Reaches start c) (hpath : path.toList = use.start.toList ++ rest) :
    begins start path = begins start use.start := by
  rw [Bool.eq_iff_iff, begins, begins, List.isPrefixOf_iff_prefix, List.isPrefixOf_iff_prefix, hpath]
  constructor
  · intro hfits
    rcases List.prefix_or_prefix_of_prefix hfits (List.prefix_append _ rest) with h | h
    · exact h
    · obtain ⟨more, hmore⟩ := h
      cases more with
      | nil => exact ⟨[], by simpa using hmore.symm⟩
      | cons c more => exact absurd ⟨more, by simp [← hmore]⟩ (hreach c)
  · intro hfits
    exact hfits.trans (List.prefix_append _ rest)

theorem firstFit_of_not_reaches {use : KeyUse} {starts : List String} {key path path' : String}
    (hpath : Spells use key path) (hpath' : Spells use key path')
    (hreach : ∀ start ∈ starts, ∀ c, ¬ use.Reaches start c) :
    firstFit starts path = firstFit starts path' := by
  obtain ⟨_, hroute, -⟩ := hpath
  obtain ⟨_, hroute', -⟩ := hpath'
  have hbegins : starts.map (begins · path) = starts.map (begins · path') := by
    apply List.map_congr_left
    intro start hstart
    rw [begins_of_not_reaches (hreach start hstart) (ofPath?_route.mp hroute).1,
      begins_of_not_reaches (hreach start hstart) (ofPath?_route.mp hroute').1]
  have hfit := congrArg (List.findIdx? id) hbegins
  rwa [List.findIdx?_map, List.findIdx?_map] at hfit

/-- **A beginning that reaches into the key can be escaped.** -/
theorem Spells.escape {use : KeyUse} {key path start : String} {c : Char}
    (hpath : Spells use key path) (hreach : use.Reaches start c) (hc : c ≠ '%')
    (hfits : begins start path = true) :
    ∃ path', Spells use key path' ∧ begins start path' = false := by
  obtain ⟨segment, hroute, hkey⟩ := hpath
  obtain ⟨hsplit, -, hslash⟩ := ofPath?_route.mp hroute
  -- The segment begins with the character with which the beginning goes on.
  have hprefix := hreach.trans (List.isPrefixOf_iff_prefix.mp hfits)
  rw [hsplit, List.prefix_append_right_inj] at hprefix
  obtain ⟨rest, hrest⟩ := hprefix
  rw [List.singleton_append] at hrest
  have hsegment : segment = String.ofList (c :: rest) := by rw [hrest, String.ofList_toList]
  rw [← hrest, List.mem_cons, not_or] at hslash
  obtain ⟨other, hhead, hother, hsame⟩ : ∃ other : List Char, other.head? = some '%' ∧
      '/' ∉ other ∧ Percent.decode? (String.ofList other) = some key := by
    refine ⟨Percent.spelling c ++ rest, Percent.head?_spelling c rest, ?_, ?_⟩
    · simp [Percent.no_slash_spelling c, hslash.2]
    · rw [Percent.decode?_spelling hc, ← hsegment, hkey]
  refine ⟨String.ofList (use.start.toList ++ other), ⟨String.ofList other, ?_, hsame⟩, ?_⟩
  · refine ofPath?_route.mpr ⟨by simp, ?_, by simpa using hother⟩
    rintro hempty
    rw [String.ofList_eq_empty_iff] at hempty
    simp [hempty] at hhead
  · rw [Bool.eq_false_iff, begins, Ne, List.isPrefixOf_iff_prefix, String.toList_ofList]
    intro hfits'
    have hprefix' := hreach.trans hfits'
    rw [List.prefix_append_right_inj] at hprefix'
    obtain ⟨more, rfl⟩ := hprefix'
    exact hc (by simpa using hhead)

/-! ## Two spellings -/

/-- **Two spellings of a key have the same limit in all rulebooks with certain beginnings exactly if
the same beginning is the first one to fit both.**

The limits are compared up to the text that a blocked or throttled client is told. The other two
parts are about single beginnings. If none reaches into the key, no spelling makes a difference. If
one does, with another character than a percent sign, and fits a spelling, then it does not fit every
spelling of the key. -/
theorem limit_of_spellings {use : KeyUse} {key path path' : String}
    (hpath : Spells use key path) (hpath' : Spells use key path') :
    (∀ starts : List String,
      (∀ (b : Rulebook) (h : Headers), b.rules.map PathRule.pathStart = starts →
        (b.limit path h).Alike (b.limit path' h)) ↔
        firstFit starts path = firstFit starts path') ∧
    (∀ (b : Rulebook) (h : Headers), (∀ r ∈ b.rules, ∀ c, ¬ use.Reaches r.pathStart c) →
      (b.limit path h).Alike (b.limit path' h)) ∧
    (∀ start c, use.Reaches start c → c ≠ '%' → begins start path = true →
      ∃ path'', Spells use key path'' ∧ begins start path'' = false) := by
  refine ⟨fun starts => ⟨firstFit_of_alike, ?_⟩, ?_, ?_⟩
  · rintro hfit b h rfl
    exact Rulebook.alike_of_firstFit hfit h
  · intro b h hreach
    refine Rulebook.alike_of_firstFit (firstFit_of_not_reaches hpath hpath' ?_) h
    simpa using hreach
  · intro start c hreach hc hfits
    exact hpath.escape hreach hc hfits

theorem spells_secret : Spells .read "secret" "/get/secret" :=
  ⟨"secret", by decide +kernel, by decide +kernel⟩

theorem spells_encoded_secret : Spells .read "secret" "/get/%73ecret" :=
  ⟨"%73ecret", by decide +kernel, by decide +kernel⟩

/-- A rule for all reads does not tell two spellings apart; one for some keys could be escaped. -/
theorem limit_of_spellings_secret :
    let r : PathRule := ⟨"/get/", ["user-id"], .limit ⟨1, by decide, by decide⟩, .ofSecs 60,
      some "wait"⟩
    let b := Rulebook.empty.addRule r
    let h := Headers.http [("user-id", "u")]
    Spells .read "secret" "/get/secret" ∧ Spells .read "secret" "/get/%73ecret" ∧
      (b.limit "/get/secret" h).Alike (b.limit "/get/%73ecret" h) ∧
      ∃ path, Spells .read "secret" path ∧ begins "/get/s" path = false := by
  intro r b h
  obtain ⟨-, halike, hescape⟩ := limit_of_spellings spells_secret spells_encoded_secret
  refine ⟨spells_secret, spells_encoded_secret, halike b h ?_, hescape "/get/s" 's' ?_ ?_ ?_⟩
  · intro rule hrule c hreach
    obtain rfl : rule = r := by simpa [b, Rulebook.addRule, Rulebook.empty] using hrule
    have hlength := hreach.length_le
    simp [r, KeyUse.start, KeyUse.name] at hlength
  · exact List.isPrefixOf_iff_prefix.mp (by decide +kernel)
  · decide
  · decide +kernel

/-- A rule for a single key limits the client that spells it in plain letters, and nobody else. -/
theorem limits_of_two_spellings :
    let r : PathRule := ⟨"/get/secret", ["user-id"], .limit ⟨1, by decide, by decide⟩, .ofSecs 60,
      some "wait"⟩
    let b := Rulebook.empty.addRule r
    let h := Headers.http [("user-id", "u")]
    Spells .read "secret" "/get/secret" ∧ Spells .read "secret" "/get/%73ecret" ∧
      b.limit "/get/secret" h =
        .limited ⟨".u", ⟨1, by decide, by decide⟩, .ofSecs 60, "wait"⟩ ∧
      b.limit "/get/%73ecret" h = .unlimited ∧
      ¬ (b.limit "/get/secret" h).Alike (b.limit "/get/%73ecret" h) := by
  intro r b h
  have hlimited : b.limit "/get/secret" h =
      .limited ⟨".u", ⟨1, by decide, by decide⟩, .ofSecs 60, "wait"⟩ := by
    decide +kernel
  have hunlimited : b.limit "/get/%73ecret" h = .unlimited := by
    decide +kernel
  refine ⟨spells_secret, spells_encoded_secret, hlimited, hunlimited, ?_⟩
  rw [hlimited, hunlimited]
  exact id

end Http

end BoundedResources
