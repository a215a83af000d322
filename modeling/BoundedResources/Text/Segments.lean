/-!
# Segments of a path

A path is cut at its slashes into segments, one more than there are slashes; joined by slashes
again they give the path back (`joined_segments`). Nothing is decoded or resolved.
-/

set_option autoImplicit false

namespace BoundedResources.Text

/-- The segments of a path, that in front of the first slash included. -/
def segments : List Char → List (List Char)
  | [] => [[]]
  | c :: rest =>
    if c = '/' then [] :: segments rest
    else
      match segments rest with
      | [] => [[c]]
      | s :: more => (c :: s) :: more

/-- Segments joined by slashes. -/
def joined : List (List Char) → List Char
  | [] => []
  | [s] => s
  | s :: more => s ++ '/' :: joined more

theorem segments_ne_nil (cs : List Char) : segments cs ≠ [] := by
  cases cs with
  | nil => simp [segments]
  | cons c rest =>
    simp only [segments]
    split
    · simp
    · split <;> simp

theorem joined_segments (cs : List Char) : joined (segments cs) = cs := by
  induction cs with
  | nil => rfl
  | cons c rest ih =>
    simp only [segments]
    split
    · next h =>
      match hs : segments rest with
      | [] => exact absurd hs (segments_ne_nil rest)
      | s :: more => rw [hs] at ih; simp [joined, ih, h]
    · match hs : segments rest with
      | [] => exact absurd hs (segments_ne_nil rest)
      | s :: more =>
        rw [hs] at ih
        match more with
        | [] => simp only [joined] at ih ⊢; rw [ih]
        | t :: more => simp only [joined, List.cons_append] at ih ⊢; rw [ih]

theorem segments_of_no_slash {cs : List Char} (h : '/' ∉ cs) : segments cs = [cs] := by
  induction cs with
  | nil => rfl
  | cons c rest ih =>
    simp only [List.mem_cons, not_or] at h
    simp [segments, Ne.symm h.1, ih h.2]

theorem segments_append_slash {cs : List Char} (h : '/' ∉ cs) (rest : List Char) :
    segments (cs ++ '/' :: rest) = cs :: segments rest := by
  induction cs with
  | nil => simp [segments]
  | cons c more ih =>
    simp only [List.mem_cons, not_or] at h
    simp [segments, Ne.symm h.1, ih h.2]

/-- What was joined by slashes comes apart again, if the parts have none. -/
theorem segments_joined {l : List (List Char)} (hl : l ≠ []) (h : ∀ s ∈ l, '/' ∉ s) :
    segments (joined l) = l := by
  induction l with
  | nil => exact absurd rfl hl
  | cons s more ih =>
    obtain ⟨hs, hmore⟩ := List.forall_mem_cons.mp h
    match more with
    | [] => exact segments_of_no_slash hs
    | t :: more =>
      rw [joined, segments_append_slash hs, ih (by simp) hmore]
      simp

theorem no_slash_of_mem_segments {cs s : List Char} (h : s ∈ segments cs) : '/' ∉ s := by
  induction cs generalizing s with
  | nil => simp_all [segments]
  | cons c rest ih =>
    simp only [segments] at h
    split at h
    · rcases List.mem_cons.mp h with rfl | h
      · simp
      · exact ih h
    · next hc =>
      match hr : segments rest with
      | [] => exact absurd hr (segments_ne_nil rest)
      | t :: more =>
        rw [hr] at h ih
        rcases List.mem_cons.mp h with rfl | h
        · simpa [Ne.symm hc] using ih List.mem_cons_self
        · exact ih (List.mem_cons_of_mem t h)

/-- The segments of a path as texts. -/
def segmentsOf (path : String) : List String := (segments path.toList).map String.ofList

end BoundedResources.Text
