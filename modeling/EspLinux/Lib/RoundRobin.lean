import EspLinux.Lib.Loop

/-!
# Trying the members of a list in turn

A search that has only a successor function: it tries one candidate after the other, each the
successor of the one before, until one works or the first is to come round again.  If the successor
function goes round a list without repetitions, the search tries its members in turn, each once.
`ends_iff` says what is needed of the successor function for that, which is no more than the search
asks of it: only the candidates that fail have successors that matter.
-/

namespace EspLinux.Lib.RoundRobin

variable {α : Type*}

/-- The candidates to be tried of a list, up to the first that works, and that one; `works k x` says
whether the candidate `x` works when `k` others have been tried. -/
def attempts (works : ℕ → α → Bool) : ℕ → List α → List α × Option α
  | _, [] => ([], none)
  | k, x :: xs =>
    if works k x then ([x], some x)
    else (x :: (attempts works (k + 1) xs).1, (attempts works (k + 1) xs).2)

/-- One turn of the search that began with `first`: the candidates that have been tried, and the
next. -/
def body [DecidableEq α] (next : α → α) (works : ℕ → α → Bool) (first : α) :
    List α × α → (List α × α) ⊕ (List α × Option α)
  | (tried, x) =>
    if works tried.length x then .inr (tried ++ [x], some x)
    else if next x = first then .inr (tried ++ [x], none)
    else .inl (tried ++ [x], next x)

/-- The successors of the candidates that fail are the next of the list, and behind the last comes
`first`. -/
def Goes (next : α → α) (works : ℕ → α → Bool) (first : α) : ℕ → List α → Prop
  | _, [] => True
  | k, [x] => works k x = false → next x = first
  | k, x :: y :: xs => works k x = false → next x = y ∧ Goes next works first (k + 1) (y :: xs)

variable [DecidableEq α] {next : α → α} {works : ℕ → α → Bool} {first x y : α} {xs tried : List α}

lemma body_works (h : works tried.length x = true) :
    body next works first (tried, x) = .inr (tried ++ [x], some x) := by
  rw [body, if_pos h]

lemma body_last (h : works tried.length x = false) (hn : next x = first) :
    body next works first (tried, x) = .inr (tried ++ [x], none) := by
  rw [body, if_neg (by simp [h]), if_pos hn]

lemma body_on (h : works tried.length x = false) (hn : next x ≠ first) :
    body next works first (tried, x) = .inl (tried ++ [x], next x) := by
  rw [body, if_neg (by simp [h]), if_neg hn]

/-- What has been tried stays tried, and the next candidate is tried as well. -/
lemma prefix_of_loop {n : ℕ} {r : List α × Option α}
    (h : loop (body next works first) n (tried, x) = some r) : tried ++ [x] <+: r.1 := by
  induction n generalizing tried x with
  | zero => cases h
  | succ n ih =>
    cases hw : works tried.length x with
    | true =>
      rw [loop_inr (body_works hw)] at h
      cases h
      exact List.prefix_rfl
    | false =>
      by_cases hn : next x = first
      · rw [loop_inr (body_last hw hn)] at h
        cases h
        exact List.prefix_rfl
      · rw [loop_inl (body_on hw hn)] at h
        exact (List.prefix_append _ _).trans (ih h)

omit [DecidableEq α] in
lemma head_attempts (works : ℕ → α → Bool) (k : ℕ) (y : α) (xs : List α) :
    ∃ rest, (attempts works k (y :: xs)).1 = y :: rest := by
  rw [attempts]
  split <;> exact ⟨_, rfl⟩

/-- From a candidate on, the search tries the list in turn if and only if the successors go round
it. -/
theorem ends_iff_goes (hfirst : first ∉ xs) :
    Ends (body next works first) (tried, x)
        (tried ++ (attempts works tried.length (x :: xs)).1,
          (attempts works tried.length (x :: xs)).2) ↔
      Goes next works first tried.length (x :: xs) := by
  induction xs generalizing tried x with
  | nil =>
    cases hw : works tried.length x with
    | true => simp [ends_inr (body_works hw), attempts, Goes, hw]
    | false =>
      by_cases hn : next x = first
      · simp [ends_inr (body_last hw hn), attempts, Goes, hw, hn]
      · rw [ends_inl (body_on hw hn)]
        refine iff_of_false ?_ (by simp [Goes, hw, hn])
        rintro ⟨n, h⟩
        have hlen := (prefix_of_loop h).length_le
        simp [attempts, hw] at hlen
  | cons y xs ih =>
    have hy : first ≠ y := fun h => hfirst (h ▸ List.mem_cons_self)
    have hxs : first ∉ xs := fun h => hfirst (List.mem_cons_of_mem y h)
    cases hw : works tried.length x with
    | true => simp [ends_inr (body_works hw), attempts, Goes, hw]
    | false =>
      have htried : (tried ++ [x]).length = tried.length + 1 := by simp
      have hattempts : attempts works tried.length (x :: y :: xs) =
          (x :: (attempts works (tried.length + 1) (y :: xs)).1,
            (attempts works (tried.length + 1) (y :: xs)).2) := by
        rw [attempts, if_neg (by simp [hw])]
      obtain ⟨rest, hrest⟩ := head_attempts works (tried.length + 1) y xs
      rw [hattempts]
      dsimp only
      by_cases hn : next x = first
      · rw [ends_inr (body_last hw hn)]
        refine iff_of_false ?_ ?_
        · intro h
          have h := List.append_cancel_left (Prod.mk.inj h).1
          rw [hrest] at h
          cases h
        · intro h
          exact hy (hn.symm.trans (h hw).1)
      · rw [ends_inl (body_on hw hn)]
        by_cases hny : next x = y
        · have hmore := @ih y (tried ++ [x]) hxs
          rw [htried, List.append_assoc, List.singleton_append] at hmore
          rw [hny, hmore]
          exact ⟨fun h _ => ⟨hny, h⟩, fun h => (h hw).2⟩
        · refine iff_of_false ?_ fun h => hny (h hw).1
          rintro ⟨n, h⟩
          have hpre := prefix_of_loop h
          rw [List.append_assoc] at hpre
          have hpre := (List.prefix_append_right_inj tried).mp hpre
          rw [hrest] at hpre
          exact hny (by simpa using hpre)

omit [DecidableEq α] in
lemma goes_iff {k : ℕ} : Goes next works first k xs ↔
    ∀ (i : ℕ) (h : i < xs.length), (∀ (j : ℕ) (hj : j ≤ i), works (k + j) xs[j] = false) →
      next xs[i] = xs[i + 1]?.getD first := by
  induction xs generalizing k with
  | nil => exact iff_of_true trivial fun i h => absurd h (Nat.not_lt_zero i)
  | cons x xs ih =>
    cases xs with
    | nil =>
      constructor
      · intro hgoes i h hfail
        obtain rfl : i = 0 := by simpa using h
        exact hgoes (hfail 0 le_rfl)
      · intro h hw
        refine h 0 Nat.zero_lt_one fun j hj => ?_
        obtain rfl : j = 0 := by omega
        exact hw
    | cons y xs =>
      constructor
      · intro hgoes i h hfail
        obtain ⟨hxy, hrest⟩ := hgoes (hfail 0 (Nat.zero_le i))
        cases i with
        | zero => exact hxy
        | succ i =>
          refine ih.mp hrest i (Nat.lt_of_succ_lt_succ h) fun j hj => ?_
          have := hfail (j + 1) (Nat.succ_le_succ hj)
          rwa [← Nat.add_assoc, Nat.add_right_comm] at this
      · intro h hw
        refine ⟨h 0 (Nat.zero_lt_succ _) fun j hj => ?_, ih.mpr fun i hi hfail => ?_⟩
        · obtain rfl : j = 0 := by omega
          exact hw
        refine h (i + 1) (Nat.succ_lt_succ hi) fun j hj => ?_
        cases j with
        | zero => exact hw
        | succ j =>
          have := hfail j (Nat.le_of_succ_le_succ hj)
          rwa [Nat.add_right_comm, Nat.add_assoc] at this

/-! ## Going round a list -/

omit [DecidableEq α] in
@[simp] lemma mem_eraseDups [BEq α] [LawfulBEq α] {l : List α} : y ∈ l.eraseDups ↔ y ∈ l := by
  induction hn : l.length using Nat.strong_induction_on generalizing l with
  | _ n ih =>
    cases l with
    | nil => rfl
    | cons a l =>
      have hlt : (l.filter fun b => !b == a).length < n := by
        rw [← hn]
        exact Nat.lt_succ_of_le (List.length_filter_le _ l)
      rw [List.eraseDups_cons, List.mem_cons, ih _ hlt rfl, List.mem_filter, List.mem_cons]
      by_cases ha : y = a <;> simp [ha]

lemma eraseDups_of_nodup {l : List α} (h : l.Nodup) : l.eraseDups = l := by
  induction l with
  | nil => rfl
  | cons a l ih =>
    obtain ⟨ha, hl⟩ := List.nodup_cons.mp h
    have hfilter : (l.filter fun b => !b == a) = l := by
      refine List.filter_eq_self.mpr fun b hb => ?_
      have : b ≠ a := fun h => ha (h ▸ hb)
      simp [this]
    rw [List.eraseDups_cons, hfilter, ih hl]

/-- The members of a list in turn, each once, beginning behind the first mention of `x`. -/
def turns (l : List α) (x : α) : List α :=
  (if x ∈ l then l.rotate (l.idxOf x + 1) else l).eraseDups

@[simp] lemma mem_turns {l : List α} {z : α} : y ∈ turns l z ↔ y ∈ l := by
  rw [turns, mem_eraseDups]
  split
  · exact List.mem_rotate
  · rfl

/-- The first of the turns is not met again. -/
lemma not_mem_tail_turns {l ys : List α} {z : α} (h : turns l z = y :: ys) : y ∉ ys := by
  rw [turns] at h
  generalize (if z ∈ l then l.rotate (l.idxOf z + 1) else l) = m at h
  cases m with
  | nil => cases h
  | cons a m =>
    rw [List.eraseDups_cons] at h
    cases h
    simp

/-- What `nextOr` finds behind a member. -/
lemma nextOr_eq_getElem? {l : List α} {z d : α} (hz : z ∈ l) :
    l.nextOr z d = l[l.idxOf z + 1]?.getD d := by
  induction l with
  | nil => cases hz
  | cons a l ih =>
    cases l with
    | nil =>
      obtain rfl := List.mem_singleton.mp hz
      simp
    | cons b l =>
      by_cases ha : z = a
      · subst ha
        rw [List.nextOr_self_cons_cons]
        simp
      · rw [List.nextOr_cons_of_ne _ _ _ _ ha, ih (List.mem_of_ne_of_mem ha hz),
          List.idxOf_cons_ne _ (Ne.symm ha)]
        rfl

/-- The turns begin with the next. -/
lemma head_turns {l : List α} (z : α) {d : α} (hd : l.head? = some d) :
    (turns l z).head? = some (l.nextOr z d) := by
  have hhead (m : List α) : m.eraseDups.head? = m.head? := by
    cases m with
    | nil => rfl
    | cons a m => rw [List.eraseDups_cons, List.head?_cons, List.head?_cons]
  rw [turns, hhead]
  split
  · rename_i hz
    have hlt := List.idxOf_lt_length_of_mem hz
    rw [nextOr_eq_getElem? hz]
    obtain hlt | heq : l.idxOf z + 1 < l.length ∨ l.idxOf z + 1 = l.length := by omega
    · rw [List.head?_rotate hlt, List.getElem?_eq_getElem hlt, Option.getD_some]
    · rw [heq, List.rotate_length, List.getElem?_eq_none le_rfl, Option.getD_none, hd]
  · rename_i hz
    rw [hd]
    by_contra hne
    exact hz (List.mem_of_nextOr_ne fun h => hne (by rw [h]))

/-- The turns of a list without repetitions go round it. -/
lemma turns_isRotated {l : List α} (h : l.Nodup) (z : α) : turns l z ~r l := by
  rw [turns]
  split
  · rw [eraseDups_of_nodup (List.nodup_rotate.mpr h)]
    exact .forall l _
  · rw [eraseDups_of_nodup h]

lemma nextOr_eq_next {l : List α} {z d : α} (hz : z ∈ l) (hd : l.head? = some d) :
    l.nextOr z d = l.next z hz := by
  have hget : l.get ⟨0, List.length_pos_of_mem hz⟩ = d := by
    cases l with
    | nil => cases hz
    | cons a l => exact Option.some.inj hd
  rw [List.next, hget]

/-- The next of a list without repetitions is the next of its turns. -/
lemma next_turns {l : List α} (hnodup : l.Nodup) (z : α) {d e : α} (hd : l.head? = some d)
    (he : (turns l z).head? = some e) (i : ℕ) (hi : i < (turns l z).length) :
    l.nextOr (turns l z)[i] d = (turns l z)[i + 1]?.getD e := by
  have hrot := turns_isRotated hnodup z
  have hnodup' : (turns l z).Nodup := hrot.nodup_iff.mpr hnodup
  have hmem : (turns l z)[i] ∈ turns l z := List.getElem_mem hi
  rw [nextOr_eq_next (hrot.mem_iff.mp hmem) hd, List.isRotated_next_eq hrot.symm hnodup,
    List.next_getElem _ hnodup' i hi]
  obtain hlt | heq : i + 1 < (turns l z).length ∨ i + 1 = (turns l z).length := by omega
  · rw [List.getElem?_eq_getElem hlt, Option.getD_some]
    simp only [Nat.mod_eq_of_lt hlt]
  · rw [List.getElem?_eq_none heq.ge, Option.getD_none]
    simp only [heq, Nat.mod_self]
    rw [List.head?_eq_getElem?, List.getElem?_eq_getElem (by omega)] at he
    exact Option.some.inj he

end EspLinux.Lib.RoundRobin
