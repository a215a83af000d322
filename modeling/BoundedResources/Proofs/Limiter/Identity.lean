import BoundedResources.Limiter.Limit

/-!
# Who is charged together

A rule tells its clients apart by the values of its headers, but charges them to one text, in which
each non-empty value stands behind a point. Two requests that carry different values can come to
the same text: a header that is missing leaves no trace, and a value may have points of its own.

**`Rulebook.same_values_iff_same_shape`** says that there is no other way. Of two requests under
one key, compare for each header of the rule only whether there is a value and how many points it
has: if that is the same everywhere, the values are the same. The text is read from the left; a
value ends at the next point but those that it has itself (`eq_of_count_points`).
-/

set_option autoImplicit false

namespace BoundedResources

/-- The value that a request carries for a header of a rule, if it is not empty. -/
def Headers.carried (h : Headers) (name : String) : Option String :=
  (h.get? name.toLower).filter fun v => !v.isEmpty

/-- How many points a value has. -/
def points (v : String) : Nat := v.toList.count '.'

namespace PathRule

/-! ## Reading a key -/

/-- What a header adds to a key. -/
def segment : Option String → List Char
  | none => []
  | some v => '.' :: v.toList

/-- A text that is empty or begins with a point. -/
def Pointed (l : List Char) : Prop := ∀ c, l.head? = some c → c = '.'

theorem pointed_segments (f : String → Option String) (names : List String) :
    Pointed (names.flatMap fun name => segment (f name)) := by
  induction names with
  | nil => intro c hc; simp at hc
  | cons name names ih =>
    intro c hc
    cases hf : f name with
    | none => exact ih c (by simpa [segment, hf] using hc)
    | some v => simpa [segment, hf, eq_comm] using hc

/-- What follows a value without further points cannot begin inside of it. -/
theorem eq_nil_of_count_points {a rest rest' : List Char} (hrest : Pointed rest)
    (hsplit : rest = a ++ rest') (hcount : a.count '.' = 0) : a = [] := by
  cases a with
  | nil => rfl
  | cons c a =>
    have hpoint : c = '.' := hrest c (by simp [hsplit])
    simp [hpoint] at hcount

theorem eq_of_count_points {u u' rest rest' : List Char} (hrest : Pointed rest)
    (hrest' : Pointed rest') (hcount : u.count '.' = u'.count '.')
    (htext : u ++ rest = u' ++ rest') : u = u' ∧ rest = rest' := by
  -- One of the two values begins the other, and has all of its points.
  rcases List.append_eq_append_iff.mp htext with ⟨a, rfl, hsplit⟩ | ⟨a, rfl, hsplit⟩
  · rw [List.count_append] at hcount
    obtain rfl := eq_nil_of_count_points hrest hsplit (by omega)
    simpa using hsplit
  · rw [List.count_append] at hcount
    obtain rfl := eq_nil_of_count_points hrest' hsplit (by omega)
    simpa using hsplit.symm

theorem eq_of_segments {f f' : String → Option String} {names : List String}
    (hshape : ∀ name ∈ names, (f name).map points = (f' name).map points)
    (htext : (names.flatMap fun name => segment (f name)) =
      names.flatMap fun name => segment (f' name)) :
    ∀ name ∈ names, f name = f' name := by
  induction names with
  | nil => intro name hname; cases hname
  | cons first names ih =>
    obtain ⟨hfirst, hrest⟩ := List.forall_mem_cons.mp hshape
    rw [List.flatMap_cons, List.flatMap_cons] at htext
    rw [List.forall_mem_cons]
    cases hf : f first with
    | none =>
      cases hf' : f' first with
      | none => exact ⟨rfl, ih hrest (by simpa [segment, hf, hf'] using htext)⟩
      | some v' => simp [hf, hf'] at hfirst
    | some v =>
      cases hf' : f' first with
      | none => simp [hf, hf'] at hfirst
      | some v' =>
        simp only [hf, hf', Option.map_some, Option.some.injEq] at hfirst
        simp only [segment, hf, hf', List.cons_append, List.cons.injEq, true_and] at htext
        obtain ⟨hv, htail⟩ := eq_of_count_points (pointed_segments f names)
          (pointed_segments f' names) hfirst htext
        exact ⟨congrArg some (String.toList_injective hv), ih hrest htail⟩

theorem toList_key (r : PathRule) (h : Headers) :
    (r.key h).toList = r.headers.flatMap fun name => segment (h.carried name) := by
  have hvalues : r.values h = r.headers.filterMap h.carried := rfl
  rw [key, String.toList_join, List.flatMap_map, hvalues]
  induction r.headers with
  | nil => rfl
  | cons name names ih =>
    rw [List.flatMap_cons, ← ih]
    cases hc : h.carried name with
    | none => rw [List.filterMap_cons_none hc]; rfl
    | some v => rw [List.filterMap_cons_some hc, List.flatMap_cons, String.toList_append]; rfl

end PathRule

namespace Rulebook

theorem key_of_limit {b : Rulebook} {r : PathRule} {path : String} {h : Headers} {c : Charge}
    (hr : b.ruleFor path = some r) (hc : b.limit path h = .limited c) : c.key = r.key h := by
  unfold limit at hc
  split at hc
  · cases hc
  · split at hc
    · cases hc
    · simp only [hr] at hc
      unfold PathRule.limit at hc
      split at hc
      · cases hc
      · cases hc
      · simp only at hc
        split at hc
        · cases hc
        · cases hc
          rfl

/-! ## Clients under one key -/

/-- **Two requests that a rule charges to one key carry the same values for all headers of the rule
exactly if, for each of these headers, both carry a value with equally many points or both carry
none.** -/
theorem same_values_iff_same_shape {b : Rulebook} {r : PathRule} {path path' : String}
    {h h' : Headers} {c c' : Charge} (hr : b.ruleFor path = some r)
    (hr' : b.ruleFor path' = some r) (hc : b.limit path h = .limited c)
    (hc' : b.limit path' h' = .limited c') (hkey : c.key = c'.key) :
    (∀ name ∈ r.headers, h.carried name = h'.carried name) ↔
      ∀ name ∈ r.headers, (h.carried name).map points = (h'.carried name).map points := by
  constructor
  · intro hsame name hname
    rw [hsame name hname]
  · intro hshape
    apply PathRule.eq_of_segments hshape
    rw [← r.toList_key, ← r.toList_key, ← key_of_limit hr hc, ← key_of_limit hr' hc', hkey]

/-! ## Two requests under one rule -/

theorem limit_of_carried {r : PathRule} {a : Allowance} (hquota : r.quota = .limit a)
    {path : String} (hfits : r.fits path = true) {h : Headers} {values : List (Option String)}
    (hcarried : r.headers.map h.carried = values)
    (hsome : (String.join ((values.filterMap id).map ("." ++ ·))).isEmpty = false) :
    (empty.addRule r).limit path h =
      .limited ⟨String.join ((values.filterMap id).map ("." ++ ·)), a, r.period, r.exceeded a⟩ := by
  have hkey : r.key h = String.join ((values.filterMap id).map ("." ++ ·)) := by
    rw [← hcarried, List.filterMap_map]
    rfl
  have hr : (empty.addRule r).ruleFor path = some r := by
    simp [ruleFor, addRule, empty, hfits]
  -- The rulebook is open and bans nothing, so that the rule decides.
  have hopen : (empty.addRule r).disabled = false := rfl
  have hbans : (empty.addRule r).bans.find? (·.hits h) = none := rfl
  unfold Rulebook.limit PathRule.limit
  simp only [hopen, hbans, hr, hquota, hkey, hsome, Bool.false_eq_true, if_false]

/-- A client with a point in its name comes twice, with its headers in another order and form. -/
theorem same_values_of_client :
    let r : PathRule := ⟨"/v1/", ["user-id", "client-id"], .limit ⟨1, by decide, by decide⟩,
      .ofSecs 60, some "wait"⟩
    let h := Headers.pairs [("user-id", "a.b"), ("client-id", "c")]
    let h' := Headers.map [("client-id", "c"), ("other", "x"), ("user-id", "a.b")]
    (empty.addRule r).limit "/v1/one" h =
        .limited ⟨".a.b.c", ⟨1, by decide, by decide⟩, .ofSecs 60, "wait"⟩ ∧
      (empty.addRule r).limit "/v1/two" h' = (empty.addRule r).limit "/v1/one" h ∧
      (∀ name ∈ r.headers, (h.carried name).map points = (h'.carried name).map points) ∧
      ∀ name ∈ r.headers, h.carried name = h'.carried name := by
  intro r h h'
  have hcarried : r.headers.map h.carried = [some "a.b", some "c"] := by decide +kernel
  have hcarried' : r.headers.map h'.carried = [some "a.b", some "c"] := by decide +kernel
  have hfits : r.fits "/v1/one" = true := by decide +kernel
  have hfits' : r.fits "/v1/two" = true := by decide +kernel
  have hlimit := limit_of_carried rfl hfits hcarried (by decide +kernel)
  have hlimit' := limit_of_carried rfl hfits' hcarried' (by decide +kernel)
  have hshape : ∀ name ∈ r.headers,
      (h.carried name).map points = (h'.carried name).map points :=
    List.map_inj_left.mp (by decide +kernel)
  refine ⟨hlimit.trans (by decide +kernel), hlimit'.trans hlimit.symm, hshape, ?_⟩
  exact (same_values_iff_same_shape (by decide +kernel) (by decide +kernel) hlimit hlimit' rfl).mpr
    hshape

/-- Two pairs of clients on one key each: one of the first pair gives its user name only and the
other its client name, and in the second pair a point has changed sides. -/
theorem two_clients_under_one_key :
    let r : PathRule := ⟨"/v1/", ["user-id", "client-id"], .limit ⟨1, by decide, by decide⟩,
      .ofSecs 60, some "wait"⟩
    let charged (h : Headers) (key : String) : Prop := (empty.addRule r).limit "/v1/" h =
      .limited ⟨key, ⟨1, by decide, by decide⟩, .ofSecs 60, "wait"⟩
    let user := Headers.pairs [("user-id", "u")]
    let client := Headers.pairs [("client-id", "u")]
    let left := Headers.pairs [("user-id", "a.b"), ("client-id", "c")]
    let right := Headers.pairs [("user-id", "a"), ("client-id", "b.c")]
    (empty.addRule r).ruleFor "/v1/" = some r ∧
      (charged user ".u" ∧ charged client ".u" ∧
        ¬ ∀ name ∈ r.headers, user.carried name = client.carried name) ∧
      (charged left ".a.b.c" ∧ charged right ".a.b.c" ∧
        ¬ ∀ name ∈ r.headers, left.carried name = right.carried name) := by
  intro r charged user client left right
  have huser : r.headers.map user.carried = [some "u", none] := by decide +kernel
  have hclient : r.headers.map client.carried = [none, some "u"] := by decide +kernel
  have hleft : r.headers.map left.carried = [some "a.b", some "c"] := by decide +kernel
  have hright : r.headers.map right.carried = [some "a", some "b.c"] := by decide +kernel
  have hcharged {h : Headers} {values : List (Option String)} {key : String}
      (hcarried : r.headers.map h.carried = values)
      (hkey : String.join ((values.filterMap id).map ("." ++ ·)) = key)
      (hsome : key.isEmpty = false) : charged h key := by
    subst hkey
    exact limit_of_carried (r := r) rfl (by decide +kernel) hcarried hsome
  have hne {h h' : Headers} (hmaps : r.headers.map h.carried ≠ r.headers.map h'.carried) :
      ¬ ∀ name ∈ r.headers, h.carried name = h'.carried name :=
    fun hsame => hmaps (List.map_inj_left.mpr hsame)
  refine ⟨by decide +kernel, ⟨?_, ?_, hne ?_⟩, ?_, ?_, hne ?_⟩
  · exact hcharged huser (by decide +kernel) (by decide +kernel)
  · exact hcharged hclient (by decide +kernel) (by decide +kernel)
  · rw [huser, hclient]
    decide
  · exact hcharged hleft (by decide +kernel) (by decide +kernel)
  · exact hcharged hright (by decide +kernel) (by decide +kernel)
  · rw [hleft, hright]
    decide

end Rulebook

end BoundedResources
