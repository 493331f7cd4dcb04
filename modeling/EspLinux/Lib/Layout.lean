import Mathlib

/-!
# Characters laid out in columns

What a character fills may depend on the column it begins in, as a tabulator does: `layout f co xs`
are the cells of the characters `xs` from column `co` on, when `f co x` are those of the character
`x` in column `co`.  A line that is wider than the window it is shown in is laid out into a buffer,
and pieces of a fixed size `t` are thrown away at the front while `ofs` says that there is more to
throw away; `fill` is this loop.  What it leaves behind column `ofs` is what the window shows, as
long as the buffer is not full before the loop has come to the window.
-/

namespace EspLinux.Lib

variable {α β : Type}

/-! ## Laying out -/

/-- The cells of the characters `xs`, the first of which begins in column `co`. -/
def layout (f : ℕ → α → List β) : ℕ → List α → List β
  | _, [] => []
  | co, x :: xs => f co x ++ layout f (co + (f co x).length) xs

section Layout

variable {f : ℕ → α → List β} {co t : ℕ} {x : α} {xs ys : List α}

@[simp] lemma layout_nil : layout f co [] = [] := rfl

lemma layout_cons : layout f co (x :: xs) = f co x ++ layout f (co + (f co x).length) xs := rfl

lemma layout_append :
    layout f co (xs ++ ys) = layout f co xs ++ layout f (co + (layout f co xs).length) ys := by
  induction xs generalizing co with
  | nil => rfl
  | cons x xs ih =>
    rw [List.cons_append, layout_cons, layout_cons, ih, List.append_assoc, List.length_append,
      Nat.add_assoc]

/-- A layout that repeats itself every `t` columns does so for several characters. -/
lemma layout_add (hf : ∀ co x, f (co + t) x = f co x) : layout f (co + t) xs = layout f co xs := by
  induction xs generalizing co with
  | nil => rfl
  | cons x xs ih => rw [layout_cons, layout_cons, hf, Nat.add_right_comm, ih]

/-- Every character fills at least one cell. -/
lemma length_le_layout (hf : ∀ co x, f co x ≠ []) : xs.length ≤ (layout f co xs).length := by
  induction xs generalizing co with
  | nil => exact le_refl _
  | cons x xs ih =>
    have hpos := List.length_pos_of_ne_nil (hf co x)
    have hrest : xs.length ≤ (layout f (co + (f co x).length) xs).length := ih
    rw [layout_cons, List.length_append, List.length_cons]
    omega

end Layout

/-! ## Filling a buffer -/

/-- Lay out characters behind `dest`, until `limit` cells are filled, and throw away pieces of `t`
cells as long as `ofs` allows. -/
def fill (f : ℕ → α → List β) (limit t : ℕ) : List α → List β → ℕ → List β × ℕ
  | [], dest, ofs => (dest, ofs)
  | x :: xs, dest, ofs =>
    if dest.length < limit then
      let dest := dest ++ f dest.length x
      if t ≤ ofs ∧ t ≤ dest.length then fill f limit t xs (dest.drop t) (ofs - t)
      else fill f limit t xs dest ofs
    else (dest, ofs)

section Fill

variable {f : ℕ → α → List β} {limit t j ofs : ℕ} {x : α} {xs ys : List α} {dest : List β}
  {blank : β}

/-- What the window shows in column `j`. -/
def shows (blank : β) (r : List β × ℕ) (j : ℕ) : β := r.1.getD (r.2 + j) blank

/-- A cell of the window that has been laid out stays. -/
lemma shows_fill_of_lt (h : ofs + j < dest.length) :
    shows blank (fill f limit t xs dest ofs) j = shows blank (dest, ofs) j := by
  induction xs generalizing dest ofs with
  | nil => rfl
  | cons x xs ih =>
    have hin : (dest ++ f dest.length x).getD (ofs + j) blank = dest.getD (ofs + j) blank :=
      List.getD_append _ _ _ _ h
    rw [fill]
    split
    · dsimp only
      split
      · rename_i hfull hpiece
        rw [ih (by rw [List.length_drop, List.length_append]; omega)]
        have hat : t + (ofs - t + j) = ofs + j := by omega
        rw [shows, shows, List.getD_eq_getElem?_getD, List.getElem?_drop, hat,
          ← List.getD_eq_getElem?_getD, hin]
      · rw [ih (by rw [List.length_append]; omega), shows, shows, hin]
    · rfl

lemma shows_behind (h : dest.length ≤ ofs + j) : shows blank (dest, ofs) j = blank :=
  List.getD_eq_default _ _ h

/-- The first cell that is laid out next is shown in the column that comes next. -/
lemma shows_append_of_eq {cells : List β} (h : ofs + j = dest.length) :
    shows blank (dest ++ cells, ofs) j = cells.headD blank := by
  rw [shows, h, List.getD_append_right _ _ _ _ (le_refl _), Nat.sub_self]
  cases cells <;> rfl

/-- What is thrown away lies before the window. -/
lemma shows_drop (h : t ≤ ofs) :
    shows blank (dest.drop t, ofs - t) j = shows blank (dest, ofs) j := by
  have hat : t + (ofs - t + j) = ofs + j := by omega
  rw [shows, shows, List.getD_eq_getElem?_getD, List.getD_eq_getElem?_getD, List.getElem?_drop, hat]

/-! ### Whether the loop comes to the window -/

/-- The buffer does not fill up before the characters `xs` are laid out: nothing more is to be
thrown away, or every character fills at most as much as is thrown away with it, or cells are thrown
away one by one and the characters that fill several are few. -/
def Arrives (f : ℕ → α → List β) (cols t : ℕ) (xs : List α) (dest : List β) (ofs : ℕ) : Prop :=
  ofs < t ∨ (dest.length < t ∧ ∀ co x, (f co x).length ≤ t) ∨
    (t = 1 ∧ dest.length + (layout f dest.length xs).length ≤ cols + xs.length)

variable {cols : ℕ} (hne : ∀ co x, f co x ≠ [])

include hne

lemma Arrives.lt (h : Arrives f cols t xs dest ofs) (hj : j < cols)
    (hat : ofs + j = dest.length + (layout f dest.length xs).length) : dest.length < cols + t := by
  have hlen : xs.length ≤ (layout f dest.length xs).length := length_le_layout hne
  rcases h with h | ⟨h, -⟩ | ⟨rfl, h⟩
  · omega
  · omega
  · omega

variable (hf : ∀ co x, f (co + t) x = f co x)

include hf

omit hne in
/-- Where the characters `xs` end does not depend on what has been thrown away. -/
lemma turn_drop (xs : List α) (hdest : t ≤ (dest ++ f dest.length x).length) :
    ((dest ++ f dest.length x).drop t).length +
        (layout f ((dest ++ f dest.length x).drop t).length xs).length + t =
      dest.length + (layout f dest.length (x :: xs)).length := by
  have hco : dest.length + (f dest.length x).length =
      ((dest ++ f dest.length x).drop t).length + t := by
    rw [List.length_append] at hdest
    rw [List.length_drop, List.length_append]
    omega
  rw [layout_cons, hco, layout_add hf, List.length_append]
  omega

omit hne hf in
lemma turn_keep :
    (dest ++ f dest.length x).length + (layout f (dest ++ f dest.length x).length xs).length =
      dest.length + (layout f dest.length (x :: xs)).length := by
  rw [layout_cons, List.length_append, List.length_append, Nat.add_assoc]

lemma Arrives.drop (h : Arrives f cols t (x :: xs) dest ofs) (hofs : t ≤ ofs)
    (hdest : t ≤ (dest ++ f dest.length x).length) :
    Arrives f cols t xs ((dest ++ f dest.length x).drop t) (ofs - t) := by
  have hpos := List.length_pos_of_ne_nil (hne dest.length x)
  rcases h with h | ⟨h, hw⟩ | ⟨rfl, h⟩
  · omega
  · refine .inr (.inl ⟨?_, hw⟩)
    have := hw dest.length x
    rw [List.length_drop, List.length_append]
    omega
  · refine .inr (.inr ⟨rfl, ?_⟩)
    have hturn := turn_drop hf xs hdest
    rw [List.length_cons] at h
    omega

omit hf in
lemma Arrives.keep (h : Arrives f cols t (x :: xs) dest ofs)
    (hno : ¬ (t ≤ ofs ∧ t ≤ (dest ++ f dest.length x).length)) :
    Arrives f cols t xs (dest ++ f dest.length x) ofs := by
  have hpos := List.length_pos_of_ne_nil (hne dest.length x)
  by_cases hofs : t ≤ ofs
  · have hdest : (dest ++ f dest.length x).length < t := by
      by_contra hge
      exact hno ⟨hofs, by omega⟩
    rcases h with h | ⟨h, hw⟩ | ⟨rfl, h⟩
    · omega
    · exact .inr (.inl ⟨hdest, hw⟩)
    · rw [List.length_append] at hdest
      omega
  · exact .inl (by omega)

/-- The window shows the first cell of what is behind the characters `xs`, where it belongs. -/
theorem shows_fill_of_arrives (hj : j < cols) (h : Arrives f cols t xs dest ofs)
    (hat : ofs + j = dest.length + (layout f dest.length xs).length) :
    shows blank (fill f (cols + t) t (xs ++ ys) dest ofs) j =
      (layout f (dest.length + (layout f dest.length xs).length) ys).headD blank := by
  have hlt := h.lt hne hj hat
  induction xs generalizing dest ofs with
  | nil =>
    rw [layout_nil, List.length_nil, Nat.add_zero] at hat ⊢
    cases ys with
    | nil =>
      have hnil : shows blank (dest ++ [], ofs) j = blank := shows_append_of_eq hat
      rwa [List.append_nil] at hnil
    | cons y ys =>
      have hfirst : shows blank (dest ++ f dest.length y, ofs) j = (f dest.length y).headD blank :=
        shows_append_of_eq hat
      have hpos := List.length_pos_of_ne_nil (hne dest.length y)
      have hin : ofs + j < (dest ++ f dest.length y).length := by
        rw [List.length_append]
        omega
      have hhead : (layout f dest.length (y :: ys)).headD blank =
          (f dest.length y).headD blank := by
        obtain ⟨c, cs, hc⟩ := List.exists_cons_of_ne_nil (hne dest.length y)
        rw [layout_cons, hc]
        rfl
      rw [List.nil_append, fill, if_pos hlt, hhead, ← hfirst]
      dsimp only
      split
      · rename_i hpiece
        rw [shows_fill_of_lt (by rw [List.length_drop]; omega), shows_drop hpiece.1]
      · exact shows_fill_of_lt hin
  | cons x xs ih =>
    rw [List.cons_append, fill, if_pos hlt]
    dsimp only
    split
    · rename_i hpiece
      have hturn := turn_drop hf xs hpiece.2
      have hroom := h.drop hne hf hpiece.1 hpiece.2
      have hat' : ofs - t + j = ((dest ++ f dest.length x).drop t).length +
          (layout f ((dest ++ f dest.length x).drop t).length xs).length := by
        have := hpiece.1
        omega
      rw [ih hroom hat' (hroom.lt hne hj hat'), ← hturn, layout_add hf]
    · rename_i hpiece
      have hroom := h.keep hne hpiece
      have hat' := hat.trans turn_keep.symm
      rw [ih hroom hat' (hroom.lt hne hj hat'), turn_keep]

/-- When cells are thrown away one by one and the characters `xs` fill many more cells than they are
characters, the loop ends before, and the window shows a blank in place of what is behind them. -/
theorem shows_fill_of_full (ht : t = 1) (hj : j < cols)
    (h : cols + xs.length < dest.length + (layout f dest.length xs).length)
    (hat : ofs + j = dest.length + (layout f dest.length xs).length) :
    shows blank (fill f (cols + t) t (xs ++ ys) dest ofs) j = blank := by
  induction xs generalizing dest ofs with
  | nil =>
    rw [layout_nil, List.length_nil, List.length_nil] at h
    cases ys with
    | nil => exact shows_behind (by omega)
    | cons y ys =>
      rw [List.nil_append, fill, if_neg (by omega)]
      exact shows_behind (by omega)
  | cons x xs ih =>
    rw [List.cons_append, fill]
    split
    · have hpos := List.length_pos_of_ne_nil (hne dest.length x)
      rw [List.length_cons] at h
      have hpiece : t ≤ ofs ∧ t ≤ (dest ++ f dest.length x).length := by
        rw [List.length_append]
        omega
      have hturn := turn_drop hf xs hpiece.2
      dsimp only
      rw [if_pos hpiece]
      exact ih (by omega) (by omega)
    · exact shows_behind (by omega)

end Fill

/-! ### What the whole window shows -/

section Window

variable {f : ℕ → α → List β} {limit cols t j ofs : ℕ} {xs : List α} {dest : List β} {blank : β}

/-- What is thrown away is `t` cells at a time. -/
lemma fill_snd_of_lt (h : ofs < t) : (fill f limit t xs dest ofs).2 = ofs := by
  induction xs generalizing dest with
  | nil => rfl
  | cons x xs ih =>
    rw [fill]
    split
    · dsimp only
      rw [if_neg fun hpiece => by omega, ih]
    · rfl

/-- Where no character fills more than is thrown away at a time, the loop is left with less than
that to be thrown away, or with fewer cells. -/
lemma fill_small (hw : ∀ co x, (f co x).length ≤ t) (h : ofs < t ∨ dest.length < t) :
    (fill f limit t xs dest ofs).2 < t ∨ (fill f limit t xs dest ofs).1.length < t := by
  induction xs generalizing dest ofs with
  | nil => exact h.imp id id
  | cons x xs ih =>
    have hx := hw dest.length x
    rw [fill]
    split
    · dsimp only
      split
      · refine ih ?_
        rw [List.length_drop, List.length_append]
        omega
      · refine ih ?_
        rw [List.length_append] at *
        omega
    · exact h

/-- As long as there is less than a piece to be thrown away, or fewer cells, the window shows what
is laid out. -/
theorem shows_fill_eq (hf : ∀ co x, f (co + t) x = f co x) (hj : j < cols)
    (h : ofs < t ∨ (dest.length < t ∧ ∀ co x, (f co x).length ≤ t)) :
    shows blank (fill f (cols + t) t xs dest ofs) j =
      (dest ++ layout f dest.length xs).getD (ofs + j) blank := by
  induction xs generalizing dest ofs with
  | nil => rw [fill, layout_nil, List.append_nil, shows]
  | cons x xs ih =>
    have hall : dest ++ layout f dest.length (x :: xs) =
        (dest ++ f dest.length x) ++ layout f (dest ++ f dest.length x).length xs := by
      rw [layout_cons, List.length_append, List.append_assoc]
    rw [fill]
    split
    · dsimp only
      split
      · rename_i hpiece
        have hlen : (dest ++ f dest.length x).length =
            ((dest ++ f dest.length x).drop t).length + t := by
          rw [List.length_drop]
          omega
        have hrest : ofs - t < t ∨ ((dest ++ f dest.length x).drop t).length < t ∧
            ∀ co x, (f co x).length ≤ t := by
          refine .inr ?_
          rcases h with h | ⟨h, hw⟩
          · omega
          · have hx := hw dest.length x
            rw [List.length_append] at hlen
            exact ⟨by omega, hw⟩
        have hat : t + (ofs - t + j) = ofs + j := by omega
        rw [ih hrest, hall, hlen, layout_add hf, List.getD_eq_getElem?_getD,
          List.getD_eq_getElem?_getD, ← List.drop_append_of_le_length hpiece.2, List.getElem?_drop, hat]
      · rename_i hpiece
        rw [ih ?_, hall]
        rcases h with h | ⟨h, hw⟩
        · exact .inl h
        · by_cases hofs : ofs < t
          · exact .inl hofs
          · exact .inr ⟨by omega, hw⟩
    · rename_i hfull
      rw [shows]
      rcases h with h | ⟨h, -⟩
      · rw [List.getD_append _ _ _ _ (by omega)]
      · omega

end Window

/-! ### Throwing away cells one by one -/

/-- The characters that are laid out before `room` more cells are filled than there are characters.
-/
def before_full (w : α → ℕ) : ℕ → List α → List α
  | _, [] => []
  | 0, _ :: _ => []
  | room + 1, x :: xs => x :: before_full w (room + 1 - (w x - 1)) xs

section OneByOne

variable {f : ℕ → α → List β} {w : α → ℕ} {cols limit room j ofs : ℕ} {xs : List α} {dest : List β}
  {blank : β}

lemma before_full_zero : before_full w 0 xs = [] := by cases xs <;> rfl

lemma before_full_pos {x : α} (h : 0 < room) :
    before_full w room (x :: xs) = x :: before_full w (room - (w x - 1)) xs := by
  obtain ⟨n, rfl⟩ := Nat.exists_eq_succ_of_ne_zero h.ne'
  rfl

lemma before_full_prefix : before_full w room xs <+: xs := by
  induction xs generalizing room with
  | nil => exact List.prefix_refl _
  | cons x xs ih =>
    cases room with
    | zero => exact List.nil_prefix
    | succ room => exact List.cons_prefix_cons.mpr ⟨rfl, ih⟩

variable (hw : ∀ co x, (f co x).length = w x) (hpos : ∀ x, 0 < w x)
  (hf : ∀ co x, f (co + 1) x = f co x)

include hw hpos

/-- After a turn that throws a cell away. -/
lemma room_drop (x : α) :
    limit - ((dest ++ f dest.length x).drop 1).length = limit - dest.length - (w x - 1) ∧
      (dest ++ f dest.length x).length = ((dest ++ f dest.length x).drop 1).length + 1 := by
  have hx := hpos x
  rw [List.length_drop, List.length_append, hw]
  omega

include hf

/-- When the buffer is full before `ofs` characters are laid out, the rest of `ofs` is left. -/
theorem fill_one (hle : (before_full w (limit - dest.length) xs).length ≤ ofs) :
    fill f limit 1 xs dest ofs =
      ((dest ++ layout f dest.length (before_full w (limit - dest.length) xs)).drop
        (before_full w (limit - dest.length) xs).length,
        ofs - (before_full w (limit - dest.length) xs).length) := by
  induction xs generalizing dest ofs with
  | nil => simp [fill, before_full]
  | cons x xs ih =>
    by_cases hlt : dest.length < limit
    · obtain ⟨hroom, hlen⟩ := @room_drop _ _ f w limit dest hw hpos x
      rw [before_full_pos (by omega), List.length_cons] at hle ⊢
      have hpiece : 1 ≤ ofs ∧ 1 ≤ (dest ++ f dest.length x).length := by omega
      have hall : dest ++ layout f dest.length (x :: before_full w (limit - dest.length - (w x - 1)) xs) =
          (dest ++ f dest.length x) ++ layout f (dest ++ f dest.length x).length
            (before_full w (limit - dest.length - (w x - 1)) xs) := by
        rw [layout_cons, List.length_append, List.append_assoc]
      rw [fill, if_pos hlt]
      dsimp only
      rw [if_pos hpiece, ih (by rw [hroom]; omega), hroom, hall, hlen, layout_add hf,
        ← List.drop_append_of_le_length hpiece.2, List.drop_drop, Nat.add_comm 1]
      congr 1
      omega
    · have hfull : limit - dest.length = 0 := by omega
      rw [fill, if_neg hlt, hfull, before_full_zero, layout_nil, List.append_nil]
      rfl

/-- Otherwise all of `ofs` is thrown away, and the window shows what is laid out. -/
theorem shows_fill_one (hj : j < cols)
    (hlt : ofs < (before_full w (cols + 1 - dest.length) xs).length) :
    (fill f (cols + 1) 1 xs dest ofs).2 = 0 ∧
      shows blank (fill f (cols + 1) 1 xs dest ofs) j =
        (dest ++ layout f dest.length xs).getD (ofs + j) blank := by
  induction xs generalizing dest ofs with
  | nil => exact absurd hlt (Nat.not_lt_zero ofs)
  | cons x xs ih =>
    obtain rfl | hofs := ofs.eq_zero_or_pos
    · exact ⟨fill_snd_of_lt one_pos, shows_fill_eq hf hj (.inl one_pos)⟩
    · by_cases hroom : dest.length < cols + 1
      · obtain ⟨hless, hlen⟩ := @room_drop _ _ f w (cols + 1) dest hw hpos x
        rw [before_full_pos (by omega), List.length_cons] at hlt
        have hpiece : 1 ≤ ofs ∧ 1 ≤ (dest ++ f dest.length x).length := by omega
        have hall : dest ++ layout f dest.length (x :: xs) = (dest ++ f dest.length x) ++
            layout f (((dest ++ f dest.length x).drop 1).length + 1) xs := by
          rw [← hlen, layout_cons, List.length_append, List.append_assoc]
        obtain ⟨hzero, hshows⟩ := @ih (ofs - 1) ((dest ++ f dest.length x).drop 1)
          (by rw [hless]; omega)
        have hat : 1 + (ofs - 1 + j) = ofs + j := by omega
        rw [fill, if_pos hroom]
        dsimp only
        rw [if_pos hpiece]
        refine ⟨hzero, hshows.trans ?_⟩
        rw [hall, layout_add hf, List.getD_eq_getElem?_getD, List.getD_eq_getElem?_getD,
          ← List.drop_append_of_le_length hpiece.2, List.getElem?_drop, hat]
      · have hfull : cols + 1 - dest.length = 0 := by omega
        rw [hfull, before_full_zero] at hlt
        exact absurd hlt (Nat.not_lt_zero ofs)

end OneByOne

end EspLinux.Lib
