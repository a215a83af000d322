import BoundedResources.Proofs.Limiter.Waiting

/-!
# What sweeps forget

A sweep takes buckets away, and with them everything that is known about what their keys have
spent. **`TokenBuckets.forgotten_are_full`** says that there was nothing left to know: had such a
bucket been kept, it would have granted its whole quota at once from the moment of the sweep on,
and that is what the new bucket does that the key is given instead.

What has to be bounded is the arrival time of the bucket, over everything that has been asked of it
since it was made, by the millisecond in which it was last seen (`Bucket.Sound`). All buckets of a
meter are bounded in this way whoever takes turns at it, under any quotas, as long as the turns are
taken in the order of time (`TokenBuckets.AllSound`).
-/

set_option autoImplicit false

namespace BoundedResources

namespace Bucket

variable {b : Bucket} {now asOf n : Nat}

theorem Sound.arrivalAt_le_of_isIdle {past : Nat} (h : b.Sound past)
    (hidle : b.isIdle (asOf / 1_000_000) = true) (hle : asOf ≤ now) :
    b.arrivalAt now ≤ now + b.interval := by
  cases harrival : b.arrival with
  | none => exact arrivalAt_le_of_none harrival now
  | some arrival =>
    have hbound := h.arrival_le_of_isIdle hidle harrival
    rw [arrivalAt, harrival, Option.getD_some]
    omega

end Bucket

namespace TokenBuckets

variable {t : TokenBuckets} {past now : Nat}

/-- All buckets of a meter were made and asked no later than `now`. -/
structure AllSound (t : TokenBuckets) (now : Nat) : Prop where
  distinct : t.buckets.DistinctKeys
  bucket : ∀ key b, t.buckets.get? key = some b → b.Sound now

theorem allSound_empty (now : Nat) : empty.AllSound now := by
  refine ⟨List.nodup_nil, fun key b hb => ?_⟩
  cases hb

theorem AllSound.later (h : t.AllSound past) (hle : past ≤ now) : t.AllSound now :=
  ⟨h.distinct, fun key b hb => (h.bucket key b hb).later hle⟩

theorem AllSound.turn (h : t.AllSound now) (e : MeterTurn) : (t.turn now e).AllSound now := by
  refine ⟨distinctKeys_turn h.distinct now e, fun key b hb => ?_⟩
  rcases bucket_turn_cases h.distinct hb with ⟨hkept, -⟩ | ⟨q, p, n, rfl, rfl⟩
  · exact h.bucket key b hkept
  · exact (sound_bucketFor (h.bucket key) q p).call (lt_lastSeen_bucketFor t now key q p) n

/-- **After turns in the order of time all buckets are sound.** -/
theorem AllSound.run {turns : List (Nat × MeterTurn)} (h : t.AllSound past)
    (hordered : turns.Pairwise fun x y => x.1 ≤ y.1) (hpast : ∀ x ∈ turns, past ≤ x.1) :
    ∃ now, (t.run turns).AllSound now := by
  obtain ⟨last, -, hlast⟩ := runTurns_induction_ordered (fun _ _ => True)
    (P := fun now t => AllSound t now) (fun _ _ _ hle hs => hs.later hle)
    (fun _ _ e _ hs => hs.turn e) h hordered hpast fun _ _ => trivial
  exact ⟨last, hlast⟩

/-- A bucket that a sweep takes away was idle. -/
theorem isIdle_of_forgotten (hd : t.buckets.DistinctKeys) {key : String} {b : Bucket}
    {asOf : Nat} (hthere : t.buckets.get? key = some b)
    (hgone : (t.sweep asOf).2.buckets.get? key = none) :
    b.isIdle (asOf / 1_000_000) = true := by
  rw [get?_sweep hd, hthere] at hgone
  simpa [Option.filter] using hgone

/-! ## Nothing is forgiven -/

/-- **A bucket that a sweep takes away would have granted its whole quota at once.**

Whoever took turns at the meter before, under whatever quotas: from the moment of the sweep on, the
next call of the key for a positive number of requests would have been allowed exactly up to the
quota of the bucket, had the bucket been kept; and exactly those calls are allowed by the new bucket
that the key is given for the same quota after the sweep. -/
theorem forgotten_are_full {turns : List (Nat × MeterTurn)}
    (hordered : turns.Pairwise fun x y => x.1 ≤ y.1) {asOf : Nat} {key : String} {b : Bucket}
    (hthere : (empty.run turns).buckets.get? key = some b)
    (hgone : ((empty.run turns).sweep asOf).2.buckets.get? key = none) {now n : Nat}
    (hle : asOf ≤ now) (hn : n ≠ 0) (p : Duration) :
    (∀ q, ((empty.run turns).spend now key q p n).1.allowed = true ↔ n ≤ b.allowance.count) ∧
      ((((empty.run turns).sweep asOf).2.spend now key b.allowance p n).1.allowed = true ↔
        n ≤ b.allowance.count) := by
  obtain ⟨past, hsound⟩ :=
    (allSound_empty 0).run hordered fun x _ => Nat.zero_le x.1
  have hidle := isIdle_of_forgotten hsound.distinct hthere hgone
  have hfull := (hsound.bucket key b hthere).arrivalAt_le_of_isIdle hidle hle
  constructor
  · intro q
    have hkept : (empty.run turns).bucketFor (now / 1_000_000) key q p =
        b.touch (now / 1_000_000) := by
      rw [bucketFor, hthere, Option.getD_some]
    rw [allowed_spend _ _ _ _ _ hn, hkept]
    exact Bucket.admits_iff_le_count (b := b.touch (now / 1_000_000)) hfull hn
  · have hnew : ((empty.run turns).sweep asOf).2.bucketFor (now / 1_000_000) key b.allowance p =
        (Bucket.create b.allowance p (now / 1_000_000)).touch (now / 1_000_000) := by
      rw [bucketFor, hgone, Option.getD_none]
    rw [allowed_spend _ _ _ _ _ hn, hnew]
    exact Bucket.admits_iff_le_count (Bucket.arrivalAt_le_of_none rfl now) hn

/-- A key that spends its quota of two per second, asks once more what is left, and is forgotten
when nobody has asked for an hour. -/
theorem forgotten_are_full_after_an_hour :
    let q : Allowance := ⟨2, by decide, by decide⟩
    let turns := [(0, MeterTurn.spend "k" q (.ofSecs 1) 2),
      (1_500_000, .spend "k" q (.ofSecs 1) 0)]
    let asOf := 3_600_002_000_000
    ∃ b, (empty.run turns).buckets.get? "k" = some b ∧
      ((empty.run turns).sweep asOf).2.buckets.get? "k" = none ∧ b.allowance.count = 2 ∧
      ((empty.run turns).spend asOf "k" q (.ofSecs 1) 2).1.allowed = true := by
  intro q turns asOf
  have hcount : ((empty.run turns).buckets.get? "k").map (·.allowance.count) = some 2 := by
    decide +kernel
  obtain ⟨b, hthere, hb⟩ := Option.map_eq_some_iff.mp hcount
  have hgone : ((empty.run turns).sweep asOf).2.buckets.get? "k" = none :=
    Option.isNone_iff_eq_none.mp (by decide +kernel)
  have hfull := forgotten_are_full (by decide) hthere hgone (Nat.le_refl asOf) (n := 2) (by decide)
    (.ofSecs 1)
  exact ⟨b, hthere, hgone, hb, (hfull.1 q).mpr (Nat.le_of_eq hb.symm)⟩

end TokenBuckets

end BoundedResources
