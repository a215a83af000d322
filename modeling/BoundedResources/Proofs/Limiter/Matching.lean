import BoundedResources.Proofs.Limiter.Sources

/-!
# What a limit depends on

A rulebook spells the names of headers as it likes, has rules for many paths and lists its bans in
some order. Most of that does not matter for one request, and **`Rulebook.limit_insensitive`** says
what does not: the case of names on both sides (`Rulebook.lowered`, `Headers.lowered`), headers that
nobody asks for (`Headers.only`), rules that do not fit or that stand behind one that does, the rule
for other paths if a rule fits, and the order of the bans, except for which of them is named.

That a rulebook looks names up in lower case is said once, of the lookup, and so is that of a list
in which the first match counts only that match counts (`find?_insert`).
-/

set_option autoImplicit false

namespace BoundedResources

/-! ## The case of names -/

namespace Headers

/-- The headers with all names in lower case. The names of a map are what they are: it is searched
for a name as it stands. -/
def lowered : Headers → Headers
  | .pairs list => .pairs (list.map fun p => (p.1.toLower, p.2))
  | .map list => .map list
  | .http list => .http (list.map fun p => (p.1.toLower, p.2))

theorem ignoringCase_lowered (list : List (String × String)) (name : String) :
    ignoringCase (list.map fun p => (p.1.toLower, p.2)) name = ignoringCase list name := by
  rw [ignoringCase, List.find?_map, Option.map_map]
  simp only [Function.comp_def, toLower_toLower]
  rfl

theorem get?_lowered (h : Headers) (name : String) : h.lowered.get? name = h.get? name := by
  cases h with
  | pairs list => exact ignoringCase_lowered list name
  | map list => rfl
  | http list => simp only [lowered, get?, ignoringCase_lowered]

end Headers

/-- The ban with its header in lower case. -/
def HeaderBan.lowered (b : HeaderBan) : HeaderBan := { b with header := b.header.toLower }

theorem HeaderBan.hits_lowered (b : HeaderBan) (h : Headers) : b.lowered.hits h = b.hits h := by
  simp only [hits, lowered, Headers.toLower_toLower]

theorem HeaderBan.message_lowered (b : HeaderBan) : b.lowered.message = b.message := by
  simp only [message, lowered, Headers.toLower_toLower]

/-- The rule with its headers in lower case. -/
def PathRule.lowered (r : PathRule) : PathRule := { r with headers := r.headers.map String.toLower }

theorem PathRule.limit_lowered (r : PathRule) (path : String) (h : Headers) :
    r.lowered.limit path h = r.limit path h := by
  have hkey : r.lowered.key h = r.key h := by
    simp only [key, values, lowered, List.filterMap_map, Function.comp_def,
      Headers.toLower_toLower]
  simp only [limit, hkey]
  rfl

namespace Rulebook

variable {b b' : Rulebook} {path : String} {h h' : Headers}

/-- The rulebook with all names of headers in lower case. -/
def lowered (b : Rulebook) : Rulebook :=
  { b with
    rules := b.rules.map PathRule.lowered
    bans := b.bans.map HeaderBan.lowered
    fallback := b.fallback.map PathRule.lowered }

theorem ruleFor_lowered (b : Rulebook) (path : String) :
    b.lowered.ruleFor path = (b.ruleFor path).map PathRule.lowered := by
  have hfirst : (b.rules.map PathRule.lowered).find? (·.fits path) =
      (b.rules.find? (·.fits path)).map PathRule.lowered := List.find?_map
  rw [ruleFor, ruleFor, lowered, hfirst, Option.map_or]

/-- **A rulebook is as good as the one that spells all names in lower case.** -/
theorem limit_lowered (b : Rulebook) (path : String) (h : Headers) :
    b.lowered.limit path h.lowered = b.limit path h := by
  have hheaders : b.lowered.limit path h.lowered = b.lowered.limit path h :=
    limit_congr fun name _ => h.get?_lowered name.toLower
  have hbans : b.lowered.bans.find? (·.hits h) =
      (b.bans.find? (·.hits h)).map HeaderBan.lowered := by
    rw [lowered, List.find?_map]
    simp only [Function.comp_def, HeaderBan.hits_lowered]
  have hopen : b.lowered.disabled = b.disabled := rfl
  rw [hheaders, limit, limit, hbans, hopen, ruleFor_lowered]
  cases b.bans.find? (·.hits h) with
  | some ban => simp only [Option.map_some, HeaderBan.message_lowered]
  | none =>
    cases b.ruleFor path with
    | none => rfl
    | some r => simp only [Option.map_none, Option.map_some, PathRule.limit_lowered]

theorem limit_of_lowered_eq (hb : b'.lowered = b.lowered) (hh : h'.lowered = h.lowered)
    (path : String) : b'.limit path h' = b.limit path h := by
  rw [← limit_lowered b', ← limit_lowered b, hb, hh]

end Rulebook

/-! ## Headers that nobody asks for -/

namespace Headers

/-- The headers with certain names, in any case. -/
def only (names : List String) : Headers → Headers
  | .pairs list => .pairs (list.filter fun p => p.1.toLower ∈ names.map String.toLower)
  | .map list => .map (list.filter fun p => p.1.toLower ∈ names.map String.toLower)
  | .http list => .http (list.filter fun p => p.1.toLower ∈ names.map String.toLower)

variable {names : List String} {name : String} {h h' : Headers}

theorem ignoringCase_only (hname : name ∈ names) (list : List (String × String)) :
    ignoringCase (list.filter fun p => p.1.toLower ∈ names.map String.toLower) name.toLower =
      ignoringCase list name.toLower := by
  rw [ignoringCase, List.find?_filter, ignoringCase]
  refine congrArg (Option.map _) (List.find?_congr fun p _ => ?_)
  rw [Bool.eq_iff_iff, decide_eq_true_iff, and_iff_right_iff_imp, beq_iff_eq, toLower_toLower]
  intro hp
  rw [hp]
  exact decide_eq_true (List.mem_map_of_mem hname)

theorem get?_only (hname : name ∈ names) (h : Headers) :
    (h.only names).get? name.toLower = h.get? name.toLower := by
  cases h with
  | pairs list => exact ignoringCase_only hname list
  | map list =>
    simp only [only, get?]
    rw [← List.filter_reverse, List.find?_filter]
    refine congrArg (Option.map _) (List.find?_congr fun p _ => ?_)
    rw [Bool.eq_iff_iff, decide_eq_true_iff, and_iff_right_iff_imp, beq_iff_eq]
    intro hp
    rw [hp, toLower_toLower]
    exact decide_eq_true (List.mem_map_of_mem hname)
  | http list => simp only [only, get?, ignoringCase_only hname]

theorem agreeOn_of_only_eq (hsame : h'.only names = h.only names) : h'.AgreeOn names h := by
  intro name hname
  rw [← get?_only hname h', hsame, get?_only hname]

end Headers

/-! ## Rules that do not decide -/

/-- Something that is not looked for, or that stands behind something that is, is not found. -/
theorem find?_insert {α : Type} {P : α → Bool} {front back : List α} {a : α}
    (h : P a = false ∨ ∃ a' ∈ front, P a' = true) :
    (front ++ a :: back).find? P = (front ++ back).find? P := by
  rw [List.find?_append, List.find?_append]
  rcases h with hno | ⟨a', ha', hyes⟩
  · rw [List.find?_cons_of_neg (by simp [hno])]
  · obtain ⟨found, hfound⟩ := Option.isSome_iff_exists.mp (List.find?_isSome.mpr ⟨a', ha', hyes⟩)
    rw [hfound, Option.some_or, Option.some_or]

namespace Rulebook

variable {b b' : Rulebook} {path : String} {h : Headers}

theorem limit_eq_of_ruleFor (hdisabled : b'.disabled = b.disabled) (hbans : b'.bans = b.bans)
    (hrule : b'.ruleFor path = b.ruleFor path) : b'.limit path h = b.limit path h := by
  rw [limit, limit, hdisabled, hbans, hrule]

theorem limit_insert_rule {front back : List PathRule} {r : PathRule}
    (hrules : b.rules = front ++ back)
    (hr : r.fits path = false ∨ ∃ r' ∈ front, r'.fits path = true) (h : Headers) :
    { b with rules := front ++ r :: back }.limit path h = b.limit path h := by
  refine limit_eq_of_ruleFor rfl rfl ?_
  rw [ruleFor, ruleFor, find?_insert hr, hrules]

theorem limit_replace_fallback (hfits : ∃ r ∈ b.rules, r.fits path = true)
    (fallback : Option PathRule) (h : Headers) :
    { b with fallback := fallback }.limit path h = b.limit path h := by
  refine limit_eq_of_ruleFor rfl rfl ?_
  obtain ⟨r, hr⟩ := Option.isSome_iff_exists.mp (List.find?_isSome.mpr hfits)
  rw [ruleFor, ruleFor, hr, Option.some_or, Option.some_or]

/-! ## Bans -/

/-- A ban that hits a request decides about it. -/
def BlockedByBan (b : Rulebook) (path : String) (h : Headers) : Prop :=
  ∃ ban ∈ b.bans, ban.hits h = true ∧ b.limit path h = .blocked ban.message

theorem blockedByBan_iff :
    b.BlockedByBan path h ↔ b.disabled = false ∧ ∃ ban ∈ b.bans, ban.hits h = true := by
  constructor
  · rintro ⟨ban, hban, hhits, hlimit⟩
    refine ⟨?_, ban, hban, hhits⟩
    cases hdisabled : b.disabled with
    | false => rfl
    | true =>
      rw [limit, if_pos hdisabled] at hlimit
      cases hlimit
  · rintro ⟨hopen, hsome⟩
    obtain ⟨ban, hfirst⟩ := Option.isSome_iff_exists.mp (List.find?_isSome.mpr hsome)
    have hhits : ban.hits h = true := by simpa using List.find?_some hfirst
    refine ⟨ban, List.mem_of_find?_eq_some hfirst, hhits, ?_⟩
    rw [limit, if_neg (Bool.eq_false_iff.mp hopen), hfirst]

/-- Where no ban decides, the bans do not matter. -/
theorem limit_of_not_blockedByBan (hban : ¬b.BlockedByBan path h) :
    b.limit path h = { b with bans := [] }.limit path h := by
  rw [blockedByBan_iff, not_and_or] at hban
  rcases hban with hdisabled | hnone
  · have hdisabled : b.disabled = true := by simpa using hdisabled
    rw [limit, if_pos hdisabled, limit, if_pos hdisabled]
  · have hmiss : b.bans.find? (·.hits h) = none :=
      List.find?_eq_none.mpr fun ban hmem hhits => hnone ⟨ban, hmem, hhits⟩
    rw [limit, limit, hmiss]
    rfl

theorem blockedByBan_perm {bans : List HeaderBan} (hperm : bans.Perm b.bans) :
    { b with bans := bans }.BlockedByBan path h ↔ b.BlockedByBan path h := by
  simp only [blockedByBan_iff, hperm.mem_iff]

theorem limit_insert_ban {front back : List HeaderBan} (hbans : b.bans = front ++ back)
    (ban : HeaderBan) (path : String) (h : Headers) :
    { b with bans := front ++ ban :: back }.limit path h = b.limit path h ∨
      { b with bans := front ++ ban :: back }.BlockedByBan path h := by
  by_cases hblocked : { b with bans := front ++ ban :: back }.BlockedByBan path h
  · exact .inr hblocked
  · have hbefore : ¬b.BlockedByBan path h := by
      rw [blockedByBan_iff] at hblocked ⊢
      rintro ⟨hopen, old, hmem, hhits⟩
      have hstill : old ∈ front ++ ban :: back := by
        rw [hbans] at hmem
        simp only [List.mem_append, List.mem_cons] at hmem ⊢
        exact hmem.imp_right .inr
      exact hblocked ⟨hopen, old, hstill, hhits⟩
    rw [limit_of_not_blockedByBan hblocked, limit_of_not_blockedByBan hbefore]
    exact .inl rfl

/-! ## All of it -/

/-- **What does not matter for the limit of a request.**

Of two rulebooks that differ by one rule or one ban either can be taken for the first, so what is
said of putting it in is said of taking it out. -/
theorem limit_insensitive (b : Rulebook) (path : String) (h : Headers) :
    -- the case of names
    (∀ (b' : Rulebook) (h' : Headers), b'.lowered = b.lowered → h'.lowered = h.lowered →
      b'.limit path h' = b.limit path h) ∧
    -- headers with other names than those of the bans and of the rule for the path
    (∀ h' : Headers, h'.only (b.asked path) = h.only (b.asked path) →
      b.limit path h' = b.limit path h) ∧
    -- a rule that does not fit, or that stands behind one that does
    (∀ front back r, b.rules = front ++ back →
      (r.fits path = false ∨ ∃ r' ∈ front, r'.fits path = true) →
        { b with rules := front ++ r :: back }.limit path h = b.limit path h) ∧
    -- the rule for other paths, if some rule fits
    ((∃ r ∈ b.rules, r.fits path = true) → ∀ fallback,
      { b with fallback := fallback }.limit path h = b.limit path h) ∧
    -- the order of the bans, but for the message
    (∀ bans, bans.Perm b.bans →
      ({ b with bans := bans }.BlockedByBan path h ↔ b.BlockedByBan path h) ∧
        (¬b.BlockedByBan path h →
          { b with bans := bans }.limit path h = b.limit path h)) ∧
    -- a further ban, unless it decides
    ∀ front back ban, b.bans = front ++ back →
      { b with bans := front ++ ban :: back }.limit path h = b.limit path h ∨
        { b with bans := front ++ ban :: back }.BlockedByBan path h := by
  refine ⟨fun b' h' hb hh => limit_of_lowered_eq hb hh path, fun h' hsame => ?_,
    fun front back r hrules hr => limit_insert_rule hrules hr h,
    fun hfits fallback => limit_replace_fallback hfits fallback h, fun bans hperm => ?_,
    fun front back ban hbans => limit_insert_ban hbans ban path h⟩
  · exact (limit_congr (Headers.agreeOn_of_only_eq hsame.symm)).symm
  · have hiff : { b with bans := bans }.BlockedByBan path h ↔ b.BlockedByBan path h :=
      blockedByBan_perm hperm
    refine ⟨hiff, fun hban => ?_⟩
    rw [limit_of_not_blockedByBan hban, limit_of_not_blockedByBan (mt hiff.mp hban)]

/-- A request is charged alike if it and the rulebook are spelled in another way, if it says nothing
of what it accepts, if another rule is in front and the rule for other paths blocks, and if the bans
are turned round; a ban on the user blocks it. -/
theorem limit_insensitive_in_six_ways :
    let r : PathRule :=
      ⟨"/v1/", ["User-Id"], .limit ⟨3, by decide, by decide⟩, .ofSecs 60, some "wait"⟩
    let other : PathRule := ⟨"/v2/", [], .block, .ofSecs 60, none⟩
    let b : Rulebook := { empty with rules := [r], bans := [⟨"client", "c"⟩, ⟨"client", "d"⟩] }
    let h : Headers := .pairs [("user-id", "u"), ("accept", "text")]
    let same (b' : Rulebook) (h' : Headers) : Prop := b'.limit "/v1/x" h' = b.limit "/v1/x" h
    b.limit "/v1/x" h = .limited ⟨".u", ⟨3, by decide, by decide⟩, .ofSecs 60, "wait"⟩ ∧
      same { b with rules := [{ r with headers := ["user-id"] }] }
        (.pairs [("User-Id", "u"), ("accept", "text")]) ∧
      same b (.pairs [("user-id", "u")]) ∧
      same { b with rules := [other, r] } h ∧
      same { b with fallback := some other } h ∧
      same { b with bans := [⟨"client", "d"⟩, ⟨"client", "c"⟩] } h ∧
      { b with bans := [⟨"User-Id", "u"⟩, ⟨"client", "c"⟩, ⟨"client", "d"⟩] }.BlockedByBan
        "/v1/x" h := by
  intro r other b h same
  obtain ⟨hcase, hothers, hrule, hfallback, horder, hban⟩ := limit_insensitive b "/v1/x" h
  have hcapitals : "User-Id".toLower = "user-id" := by decide +kernel
  have huser : "user-id".toLower = "user-id" := by decide +kernel
  have hclient : "client".toLower = "client" := by decide +kernel
  have haccept : "accept".toLower = "accept" := by decide +kernel
  have hfits : r.fits "/v1/x" = true := by decide +kernel
  have hlimit : b.limit "/v1/x" h =
      .limited ⟨".u", ⟨3, by decide, by decide⟩, .ofSecs 60, "wait"⟩ := by decide +kernel
  have hfree : ¬b.BlockedByBan "/v1/x" h := by
    rintro ⟨ban, -, -, hblocked⟩
    cases hlimit.symm.trans hblocked
  have hasked : b.asked "/v1/x" = ["client", "client", "User-Id"] := by
    simp [asked, ruleFor, b, hfits, r]
  refine ⟨hlimit, hcase _ _ ?_ ?_, hothers _ ?_, hrule [] [r] other rfl (.inl ?_),
    hfallback ⟨r, List.mem_singleton_self r, hfits⟩ _,
    (horder _ (List.Perm.swap _ _ _)).2 hfree, ?_⟩
  · simp [lowered, PathRule.lowered, b, r, hcapitals, huser]
  · simp [Headers.lowered, h, hcapitals, huser]
  · simp [Headers.only, h, hasked, hcapitals, huser, hclient, haccept]
  · decide +kernel
  · refine (hban [] b.bans ⟨"User-Id", "u"⟩ rfl).resolve_left ?_
    rw [hlimit]
    decide +kernel

end Rulebook

end BoundedResources
