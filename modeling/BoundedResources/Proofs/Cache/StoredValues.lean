import BoundedResources.Proofs.Cache.ReadBack
import BoundedResources.Proofs.Json.Values

/-!
# Stored values

A value is stored as its text and read back from it. What is stored without a lifetime is never
expired, so it stays where it is (`Store.Holds`) until somebody stores something, deletes it or
closes the store; looking at it and the background work leave it alone (`Store.Holds.run`).

That the value which is read is the one that was stored is then a fact about texts
(`Json.decode_value`): **`Store.value_roundtrip`**.
-/

set_option autoImplicit false

namespace BoundedResources

open Json (Value)

/-! ## Stores that hold a value -/

namespace Store

variable {s s' : Store} {now : Nat} {key : String} {payload : ByteArray} {budget : Nat}

/-- A payload is stored under a key, without a lifetime. -/
def Holds (s : Store) (key : String) (payload : ByteArray) : Prop :=
  ∃ e, s.contents.entries.get? key = some e ∧ e.payload = payload ∧ e.expiresAt = none

theorem isExpiredAt_of_none {e : Entry} (h : e.expiresAt = none) (now : Nat) :
    e.isExpiredAt now = false := by
  rw [Entry.isExpiredAt, h]

theorem Holds.live? (h : s.Holds key payload) (now : Nat) :
    ∃ e, s.contents.live? now key = some e ∧ e.payload = payload ∧ e.expiresAt = none := by
  obtain ⟨e, he, hpayload, hends⟩ := h
  refine ⟨e, ?_, hpayload, hends⟩
  rw [Contents.live?, he, Option.filter_some, isExpiredAt_of_none hends]
  rfl

theorem Holds.not_stale (h : s.Holds key payload) (now : Nat) : ¬ s.Stale now key := by
  rintro ⟨e, he, hexpired⟩
  obtain ⟨e', he', -, hends⟩ := h
  obtain rfl := Option.some.inj (he.symm.trans he')
  rw [isExpiredAt_of_none hends] at hexpired
  cases hexpired

theorem Thins.holds (hthins : s.Thins now s') (h : s.Holds key payload) :
    s'.Holds key payload := by
  rcases hthins.entry key with hsame | ⟨hstale, -⟩
  · rw [Holds, hsame]
    exact h
  · exact absurd hstale (h.not_stale now)

theorem perform_set (hopen : s.closed = false) (hfits : payload.size ≤ s.budget) (now : Nat)
    (key : String) :
    (s.perform now (.set key (.ok payload) none)).1 = .ok .done ∧
      (s.perform now (.set key (.ok payload) none)).2.Holds key payload := by
  obtain ⟨hdone, -, seq, hentry⟩ := perform_setRaw hopen hfits now key none
  exact ⟨hdone, _, hentry, rfl, rfl⟩

theorem perform_get (hopen : s.closed = false) (h : s.Holds key payload)
    {reader : Json.Reader Value} {v : Value}
    (hread : Json.decode reader payload.data.toList = .ok v) (now : Nat) :
    (s.perform now (.get key reader)).1 = .ok (.value v) ∧
      (s.perform now (.get key reader)).2.Holds key payload := by
  obtain ⟨e, he, hpayload, -⟩ := h.live? now
  rw [s.perform_of_open hopen, performOpened]
  refine ⟨?_, ?_⟩
  · rw [get, getRaw, he]
    simp only [hpayload, hread]
  · rw [Holds, s.contents_get]
    exact h

theorem perform_ttl (hopen : s.closed = false) (h : s.Holds key payload) (now : Nat) :
    (s.perform now (.ttl key)).1 = .ok (.lifetime none) := by
  obtain ⟨e, he, -, hends⟩ := h.live? now
  rw [s.perform_of_open hopen, performOpened, he]
  simp only [Entry.remaining, hends, Option.map_none]

theorem perform_get_of_none (hopen : s.closed = false)
    (hnone : s.contents.entries.get? key = none) (now : Nat) (reader : Json.Reader Value) :
    (s.perform now (.get key reader)).1 = .error (.notFound key) := by
  rw [s.perform_of_open hopen, performOpened, get, getRaw, Contents.live?, hnone]
  rfl

theorem contents_delete (s : Store) (key : String) :
    (s.delete key).2.contents = (s.contents.remove key).2 := by
  unfold delete
  cases he : s.contents.entries.get? key with
  | none => rw [Contents.remove_of_none he]
  | some e => rw [Contents.remove_of_some he]

theorem perform_delete (hopen : s.closed = false) (now : Nat) (key : String) :
    (s.perform now (.delete key)).1 =
        (if (s.contents.entries.get? key).isSome then .ok .done else .error (.notFound key)) ∧
      ∀ other, (s.perform now (.delete key)).2.contents.entries.get? other =
        if other = key then none else s.contents.entries.get? other := by
  rw [s.perform_of_open hopen, performOpened]
  refine ⟨s.delete_fst key, fun other => ?_⟩
  rw [contents_delete, Contents.get?_remove]

/-- **What is stored without a lifetime stays while nobody stores, deletes or closes.** -/
theorem Holds.run (hs : s.Sound budget) (hopen : s.closed = false) (h : s.Holds key payload)
    (turns : List (Nat × StoreTurn)) (hturns : ∀ t ∈ turns, t.2.keepsLive = true) :
    (s.run turns).closed = false ∧ (s.run turns).Holds key payload := by
  suffices hall : (s.run turns).Sound budget ∧ (s.run turns).closed = false ∧
      (s.run turns).Holds key payload from hall.2
  refine runTurns_induction_of (fun _ t => t.keepsLive = true)
    (P := fun s : Store => s.Sound budget ∧ s.closed = false ∧ s.Holds key payload)
    ⟨hs, hopen, h⟩ ?_ turns hturns
  rintro s now t ht ⟨hs, hopen, h⟩
  have hthins : s.Thins now (s.turn now t).2 := Thins.turn hs ht
  exact ⟨hs.turn now t, hthins.closed.trans hopen, hthins.holds h⟩

/-! ## What a stored value is charged -/

/-- A stored payload is charged for its length, once. -/
theorem Holds.charged (hs : s.Sound budget) (h : s.Holds key payload) :
    ∃ e, s.contents.entries.get? key = some e ∧ e.payload = payload ∧ e.size = payload.size ∧
      s.contents.bytes = Contents.totalSize (s.contents.entries.erase key) + payload.size := by
  obtain ⟨e, he, rfl, -⟩ := h
  have hsize : e.size = e.payload.size := hs.coherent.charged key e he
  refine ⟨e, he, rfl, hsize, ?_⟩
  rw [hs.coherent.total, ← Contents.totalSize_erase hs.coherent.distinct he, hsize]

/-! ## Values -/

/-- **A value that was stored is charged for its text and read back.**

The store is any that is open after some turns. In between others may look at it, and the background
work may do what it likes, at whatever readings of the clock. -/
theorem value_roundtrip {turns : List (Nat × StoreTurn)} (now : Nat) (key : String) {v : Value}
    (hwhole : v.IsWhole) (hordered : v.IsOrdered) (hdepth : v.nesting ≤ 127)
    (hopen : ((empty budget).run turns).closed = false) (hfits : v.text.utf8ByteSize ≤ budget) :
    let written := ((empty budget).run turns).perform now (.set key (.ok v.text.toUTF8) none)
    written.1 = .ok .done ∧
    (∃ e, written.2.contents.entries.get? key = some e ∧ e.payload = v.text.toUTF8 ∧
      e.size = v.text.utf8ByteSize ∧
      written.2.contents.bytes =
        Contents.totalSize (written.2.contents.entries.erase key) + v.text.utf8ByteSize) ∧
    ∀ between : List (Nat × StoreTurn), (∀ t ∈ between, t.2.keepsLive = true) → ∀ later,
      ((written.2.run between).perform later (.get key Json.Reader.value)).1 = .ok (.value v) := by
  intro written
  have hsound := sound_run budget turns
  have hwritten : written.2.Sound budget := hsound.turn now (.perform (.set key _ none))
  have hroom : v.text.toUTF8.size ≤ ((empty budget).run turns).budget :=
    hsound.budget_eq.symm ▸ hfits
  obtain ⟨hdone, hholds⟩ := perform_set hopen hroom now key
  have hstill : written.2.closed = false := (closed_perform _ now _).trans hopen
  refine ⟨hdone, hholds.charged hwritten, fun between hbetween later => ?_⟩
  obtain ⟨hopen', hholds'⟩ := hholds.run hwritten hstill between hbetween
  exact (perform_get hopen' hholds' (Json.decode_value hwhole ⟨hordered, hdepth⟩) later).1

/-- Characters that are escaped and some that are not, and the smallest and the largest number, in a
store that has just the room for them and is swept in between. -/
theorem value_roundtrip_escaped :
    let v : Value := .object
      [("", .array [.number (.integer (-9_223_372_036_854_775_808)),
          .number (.integer 18_446_744_073_709_551_615), .null, .bool true]),
        ("\"\\\n\x01", .string "héé 😀"), ("é", .object [])]
    let s := ((empty 94).perform 5 (.set "k" (.ok v.text.toUTF8) none)).2
    v.text.utf8ByteSize = 94 ∧ s.contents.bytes = 94 ∧
      ((s.run [(7, .purge)]).perform 3 (.get "k" Json.Reader.value)).1 = .ok (.value v) := by
  intro v s
  have hwhole : v.IsWhole := by simp [v, Value.IsWhole, Value.AreWhole, Value.MembersAreWhole]
  have hordered : v.IsOrdered := by
    refine ⟨by decide +kernel, ?_⟩
    simp [Value.IsOrdered, Value.AreOrdered, Value.MembersAreOrdered]
  have hsize : v.text.utf8ByteSize = 94 := by decide +kernel
  have hopen : ((empty 94).run []).closed = false := rfl
  obtain ⟨-, -, hread⟩ := value_roundtrip 5 "k" hwhole hordered (by decide +kernel) hopen
    (Nat.le_of_eq hsize)
  exact ⟨hsize, by decide +kernel, hread [(7, .purge)] (by decide) 3⟩

end Store

end BoundedResources
