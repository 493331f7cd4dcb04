import Mathlib

/-!
# Sifting a stream

A filter with a memory goes through a stream and lets some of its elements pass: `f s a` is the
memory after the element `a`, and whether `a` passes.  What `sift f s` makes of a stream does not
depend on the pieces in which the stream arrives (`siftPieces_eq`), and a filter that works like
another one, seen through `π`, lets the same elements pass (`sift_map`).

A program often sifts in place: what does not pass is taken out of the array by moving up what
comes behind it.  `moveUp` is the loop that moves it.
-/

namespace EspLinux.Lib

variable {α : Type*} {σ τ : Type*}

/-- What passes, and the memory afterwards. -/
def sift (f : σ → α → σ × Bool) : σ → List α → List α × σ
  | s, [] => ([], s)
  | s, a :: l =>
    let r := f s a
    let rest := sift f r.1 l
    (if r.2 then a :: rest.1 else rest.1, rest.2)

/-- What passes of a stream that arrives in pieces. -/
def siftPieces (f : σ → α → σ × Bool) : σ → List (List α) → List α × σ
  | s, [] => ([], s)
  | s, l :: ls =>
    let r := sift f s l
    let rest := siftPieces f r.2 ls
    (r.1 ++ rest.1, rest.2)

section Sift

variable {f : σ → α → σ × Bool} {s : σ} {a : α} {l l' : List α}

lemma sift_cons_of_passes (h : (f s a).2 = true) :
    sift f s (a :: l) = (a :: (sift f (f s a).1 l).1, (sift f (f s a).1 l).2) := by
  rw [sift]
  simp only [h, if_true]

lemma sift_cons_of_not_passes (h : (f s a).2 = false) :
    sift f s (a :: l) = sift f (f s a).1 l := by
  rw [sift]
  simp only [h, Bool.false_eq_true, if_false]

lemma sift_append : sift f s (l ++ l') =
    ((sift f s l).1 ++ (sift f (sift f s l).2 l').1, (sift f (sift f s l).2 l').2) := by
  induction l generalizing s with
  | nil => rfl
  | cons a l ih =>
    rw [List.cons_append]
    cases h : (f s a).2 with
    | true => rw [sift_cons_of_passes h, sift_cons_of_passes h, ih, List.cons_append]
    | false => rw [sift_cons_of_not_passes h, sift_cons_of_not_passes h, ih]

/-- The pieces make no difference. -/
theorem siftPieces_eq (ls : List (List α)) : siftPieces f s ls = sift f s ls.flatten := by
  induction ls generalizing s with
  | nil => rfl
  | cons l ls ih => rw [siftPieces, ih, List.flatten_cons, sift_append]

/-- What every element keeps, the stream keeps. -/
theorem sift_keeps {I : σ → Prop} (h : ∀ s a, I s → I (f s a).1) (hs : I s) : I (sift f s l).2 := by
  induction l generalizing s with
  | nil => exact hs
  | cons a l ih =>
    have hrest := ih (h s a hs)
    cases hp : (f s a).2 with
    | true =>
      rw [sift_cons_of_passes hp]
      exact hrest
    | false =>
      rw [sift_cons_of_not_passes hp]
      exact hrest

/-- A filter that works like another one, seen through `π`. -/
theorem sift_map {g : τ → α → τ × Bool} {π : σ → τ}
    (h : ∀ s a, g (π s) a = (π (f s a).1, (f s a).2)) :
    sift g (π s) l = ((sift f s l).1, π (sift f s l).2) := by
  induction l generalizing s with
  | nil => rfl
  | cons a l ih =>
    rw [sift, sift, h]
    dsimp only
    rw [ih]

end Sift

/-! ## In place -/

/-- The loop `for (; n > 0; n--, i++) data[i] = data[i + 1]`. -/
def moveUp [Inhabited α] : ℕ → ℕ → List α → List α
  | 0, _, data => data
  | n + 1, i, data => moveUp n (i + 1) (data.set i (data.getD (i + 1) default))

variable [Inhabited α]

/-- What comes behind the element at the end of `front` is moved up; the last cell keeps what it
holds. -/
lemma moveUp_eq (front back : List α) (a : α) (rest : List α) :
    ∃ c, moveUp back.length front.length (front ++ a :: back ++ rest) = front ++ back ++ c :: rest := by
  induction back generalizing front a with
  | nil => exact ⟨a, by simp [moveUp]⟩
  | cons b back ih =>
    obtain ⟨c, hc⟩ := ih (front ++ [b]) b
    refine ⟨c, ?_⟩
    rw [List.length_cons, moveUp]
    have hget : (front ++ a :: b :: back ++ rest).getD (front.length + 1) default = b := by
      simp [List.getD_eq_getElem?_getD]
    have hset : (front ++ a :: b :: back ++ rest).set front.length b =
        front ++ [b] ++ b :: back ++ rest := by
      simp
    rw [hget, hset]
    have hlen : (front ++ [b]).length = front.length + 1 := by simp
    rw [hlen] at hc
    rw [hc]
    simp

end EspLinux.Lib
