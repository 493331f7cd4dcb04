import EspLinux.Vi.Lines
import EspLinux.Vi.Motions

/-!
# vi: line numbers

A line number is made by `count_lines` and used by `find_line`: for the addresses of colon commands,
and by the shift commands to find back to the line they started on.  The two agree but for a line at
the end of the text that no newline ends.
-/

namespace EspLinux.Vi

open Lib Buffer

variable {g g' : Globals} {p : ℤ} {c : Char}

/-! ## Shifting lines -/

/-- No line has come or gone. -/
structure Shifted (g g' : Globals) : Prop where
  count : g'.content.count '\n' = g.content.count '\n'
  erase_char : g'.erase_char = g.erase_char
  end_nonneg : 0 ≤ g.end_ → 0 ≤ g'.end_

namespace Shifted

variable {g'' : Globals}

lemma refl (g : Globals) : Shifted g g := ⟨rfl, rfl, id⟩

lemma trans (h : Shifted g g') (h' : Shifted g' g'') : Shifted g g'' :=
  ⟨h'.count.trans h.count, h'.erase_char.trans h.erase_char, h'.end_nonneg ∘ h.end_nonneg⟩

end Shifted

/-- Deleting a character that is no newline. -/
lemma count_deleted (h0 : 0 ≤ g.end_) (hp : g.mem p ≠ '\n') :
    (g.deleted p p).content.count '\n' = g.content.count '\n' := by
  by_cases hin : 0 ≤ p ∧ p < g.end_
  · have hlt : p.toNat < g.content.length := by
      rw [Buffer.length_content]
      omega
    have hmem : g.content[p.toNat] = g.mem p := by
      have hget := g.getElem?_content (i := p.toNat) (by omega)
      have hpn : ((p.toNat : ℕ) : ℤ) = p := by omega
      rw [hpn, List.getElem?_eq_getElem hlt] at hget
      exact Option.some.inj hget
    have hdrop : (p + 1).toNat = p.toNat + 1 := by omega
    have hsplit : g.content.count '\n' =
        (g.content.take p.toNat ++ g.content[p.toNat] :: g.content.drop (p.toNat + 1)).count '\n' := by
      rw [List.getElem_cons_drop, List.take_append_drop]
    rw [Globals.content_deleted hin.1 (le_refl p) hin.2, hsplit, hmem, hdrop, List.count_append,
      List.count_append, List.count_cons_of_ne hp]
  · have hout := Buffer.text_hole_delete_outside (b := g.toBuffer) (le_refl p) (by omega)
    show (g.toBuffer.text_hole_delete p p).2.content.count '\n' = _
    rw [hout]

lemma shifted_deleted (h0 : 0 ≤ g.end_) (hp : g.mem p ≠ '\n') : Shifted g (g.deleted p p) := by
  refine ⟨count_deleted h0 hp, rfl, fun _ => ?_⟩
  have hle := Buffer.le_end_text_hole_delete (b := g.toBuffer) (p := p) (q := p) (by omega) h0
  exact (le_max_right _ _).trans hle

lemma le_end_deleted (h0 : 0 ≤ g.end_) (hle : p ≤ g.end_) :
    p ≤ (g.deleted p p).end_ := by
  obtain hlt | heq := hle.lt_or_eq
  · have hend := Buffer.le_end_text_hole_delete (b := g.toBuffer) (p := p) (q := p) (by omega) h0
    have hmax := (le_max_left (g.end_ - (p - p + 1)) 0).trans hend
    exact le_trans (by omega) hmax
  · have hout := Buffer.text_hole_delete_outside (b := g.toBuffer) (le_refl p) (.inr heq.ge)
    show p ≤ (g.toBuffer.text_hole_delete p p).2.end_
    rw [hout]
    exact hle

/-- Inserting a character that is no newline. -/
lemma shifted_insert (hc : c ≠ '\n') (hp : 0 ≤ p) (hle : p ≤ g.end_) :
    Shifted g (g.insert p [c]) := by
  refine ⟨?_, ?_, fun h0 => ?_⟩
  · rw [Globals.content_insert hp hle, List.append_assoc, List.count_append, List.count_append,
      List.count_singleton, if_neg (by simpa using hc), Nat.zero_add, ← List.count_append,
      List.take_append_drop]
  · exact g.erase_char_text_hole_make p _
  · rw [Globals.end_insert]
    omega

/-- Taking blanks out of the beginning of a line. -/
lemma run_spaces (n : ℕ) (h0 : 0 ≤ g.end_) {u : Unit}
    (hr : (shift_left.spaces p n).run Edit.exec g = .done u g') :
    Shifted g g' ∧ (p ≤ g.end_ → p ≤ g'.end_) := by
  induction n generalizing g with
  | zero =>
    cases hr
    exact ⟨.refl _, id⟩
  | succ n ih =>
    rw [shift_left.spaces, Program.bind_eq, run_look_bind] at hr
    split at hr
    · rename_i hspace
      have hne : g.mem p ≠ '\n' := by
        rw [hspace]
        decide
      obtain ⟨_, g₁, hr₁, hr₂⟩ := (Program.run_bind_eq_done _).mp hr
      cases hr₁
      have hdel := shifted_deleted h0 hne
      obtain ⟨hrest, hin⟩ := ih (hdel.end_nonneg h0) hr₂
      exact ⟨hdel.trans hrest, fun hle => hin (le_end_deleted h0 hle)⟩
    · cases hr
      exact ⟨.refl _, id⟩

lemma run_shift_left (h0 : 0 ≤ g.end_) {u : Unit}
    (hr : (shift_left p).run Edit.exec g = .done u g') :
    Shifted g g' ∧ (p ≤ g.end_ → p ≤ g'.end_) := by
  rw [shift_left, Program.bind_eq, run_look_bind] at hr
  split at hr
  · rename_i htab
    have hne : g.mem p ≠ '\n' := by
      rw [htab]
      decide
    cases hr
    exact ⟨shifted_deleted h0 hne, le_end_deleted h0⟩
  · split at hr
    · exact run_spaces _ h0 hr
    · cases hr
      exact ⟨.refl _, id⟩

/-- Putting a tab before a line, or taking a character away if a tab is what erases. -/
lemma run_plain_insert_tab (h0 : 0 ≤ g.end_) (hp : 0 ≤ p)
    (hle : g.erases '\t' = false → p ≤ g.end_) {q : ℤ}
    (hr : (plain_insert p '\t').run Edit.exec g = .done q g') :
    Shifted g g' ∧ (g.erases '\t' = false → p ≤ g'.end_) := by
  rw [plain_insert, Program.bind_eq, run_look_bind] at hr
  cases he : g.erases '\t' with
  | true =>
    refine ⟨?_, fun h => by cases h⟩
    rw [if_pos he] at hr
    split at hr
    · rename_i hne
      cases hr
      exact shifted_deleted h0 hne.1
    · cases hr
      exact .refl g
  | false =>
    have hin := hle he
    have htab : ¬ '\t' = '\r' := by decide
    rw [if_neg (by simp [he])] at hr
    dsimp only at hr
    rw [if_neg htab] at hr
    obtain ⟨p', g₁, hr₁, hr₂⟩ := (Program.run_bind_eq_done _).mp hr
    have h₁ : g₁ = g.insert p ['\t'] := by
      simp only [stupid_insert, Program.run_perform, Edit.exec] at hr₁
      split at hr₁ <;> cases hr₁
      rfl
    have hnl : ¬ (g₁.autoindent = true ∧ '\t' = '\n') := fun h => absurd h.2 (by decide)
    rw [Program.bind_eq, run_look_bind, if_neg hnl] at hr₂
    cases hr₂
    rw [h₁]
    refine ⟨shifted_insert (by decide) hp hin, fun _ => ?_⟩
    rw [Globals.end_insert]
    omega

lemma le_end_next_line {b : Buffer} (h : p ≤ b.end_) : b.next_line p ≤ b.end_ := by
  have := Buffer.end_line_le h
  rw [Buffer.next_line]
  split <;> omega

/-- The shift commands neither add nor remove lines. -/
lemma run_shift_lines (n : ℕ) {q : Ptr} (h0 : 0 ≤ g.end_) (hp : 0 ≤ q.off)
    (hle : g.erases '\t' = false → q.off ≤ g.end_) {u : Unit}
    (hr : (shift_lines c n q).run exec g = .done u g') : Shifted g g' := by
  induction n generalizing g q with
  | zero =>
    cases hr
    exact .refl _
  | succ n ih =>
    rw [shift_lines] at hr
    obtain ⟨_, g₁, hr₁, hr₂⟩ := (Program.run_bind_eq_done _).mp hr
    have h₁ : g₁ = g := by
      simp only [run_sys, Sys.exec] at hr₁
      split at hr₁ <;> cases hr₁
      rfl
    -- whichever way the line is edited, the next one begins in the text
    have hrest : ∀ {g₂ : Globals}, Shifted g₁ g₂ → (g₁.erases '\t' = false → q.off ≤ g₂.end_) →
        ((sys (.next_line q)).bind (shift_lines c n)).run exec g₂ = .done u g' → Shifted g g' := by
      intro g₂ hs hin hr₃
      obtain ⟨q', g₃, hr₄, hr₅⟩ := (Program.run_bind_eq_done _).mp hr₃
      have h₃ : g₃ = g₂ ∧ (q'.off = q.off ∨ q'.off = g₂.next_line q.off) := by
        simp only [run_sys, Sys.exec] at hr₄
        split_ifs at hr₄
        · cases hr₄
          exact ⟨rfl, .inr rfl⟩
        · cases hr₄
          exact ⟨rfl, .inl rfl⟩
      obtain ⟨rfl, hq'⟩ := h₃
      subst h₁
      have herase : g₃.erases '\t' = g₁.erases '\t' := by rw [Ed.erases, Ed.erases, hs.erase_char]
      refine hs.trans (ih (hs.end_nonneg h0) ?_ (fun he => ?_) hr₅)
      · have := g₃.le_next_line (p := q.off)
        omega
      · have hle₃ := hin (herase.symm.trans he)
        have := le_end_next_line hle₃
        omega
    subst h₁
    split at hr₂
    · obtain ⟨_, g₂, hr₃, hr₄⟩ := (Program.run_bind_eq_done _).mp hr₂
      rw [run_edit] at hr₃
      obtain ⟨hs, hin⟩ := run_shift_left h0 hr₃
      exact hrest hs (fun he => hin (hle he)) hr₄
    · obtain ⟨_, g₂, hr₃, hr₄⟩ := (Program.run_bind_eq_done _).mp hr₂
      rw [run_edit] at hr₃
      obtain ⟨hs, hin⟩ := run_plain_insert_tab h0 hp hle hr₃
      exact hrest hs hin hr₄

/-- A shift command keeps the lines, and goes to the line whose number it has taken before. -/
lemma run_shift (h : Inside g) (hdot : g.dot < g.end_)
    (hr : (shift c).run exec g = .done () g') :
    g'.content.count '\n' = g.content.count '\n' ∧ 0 ≤ g'.end_ ∧
      g'.dot = g'.skip_over_ws (g'.find_line (g.count_lines 0 g.dot)) := by
  have hpos : 0 < g.end_ := lt_of_le_of_lt h.1 hdot
  rw [shift] at hr
  obtain ⟨s, g₁, hr₁, hr⟩ := (Program.run_bind_eq_done _).mp hr
  cases hr₁
  obtain ⟨c1, g₁, hr₁, hr⟩ := (Program.run_bind_eq_done _).mp hr
  rw [run_edit] at hr₁
  obtain ⟨q, rfl⟩ := typed_done ((Program.run_perform _ _ _).symm.trans hr₁)
  obtain ⟨r, g₂, hr₂, hr⟩ := (Program.run_bind_eq_done _).mp hr
  rw [run_edit] at hr₂
  have h' : Inside { g.noticed g.queue.overrun with queue := q } := h
  obtain ⟨hb₂, -, hp, hpq, hqe⟩ := run_find_range h' hdot hr₂
  obtain ⟨p, q', ml⟩ := r
  obtain ⟨_, g₃, hr₃, hr⟩ := (Program.run_bind_eq_done _).mp hr
  have hb₃ : g₃.toBuffer = g₂.toBuffer := by
    rw [run_edit, yank_delete, Program.bind_eq, run_look_bind] at hr₃
    cases hr₃
    rfl
  obtain ⟨t, g₄, hr₄, hr⟩ := (Program.run_bind_eq_done _).mp hr
  cases hr₄
  obtain ⟨_, g₅, hr₅, hr⟩ := (Program.run_bind_eq_done _).mp hr
  have hb : g₃.toBuffer = g.toBuffer := hb₃.trans hb₂
  have hend : g₃.end_ = g.end_ := congrArg Buffer.end_ hb
  simp only [Globals.noticed_toEd] at hp hpq hqe
  have hshift := run_shift_lines _ (by omega) (Buffer.begin_line_nonneg hp)
    (fun _ => Buffer.begin_line_le.trans (by omega)) hr₅
  obtain ⟨_, g₆, hr₆, hr⟩ := (Program.run_bind_eq_done _).mp hr
  cases hr₆
  cases hr
  refine ⟨hshift.count.trans ?_, hshift.end_nonneg (by omega), rfl⟩
  rw [hb]

/-- The line a shift command goes to has as many lines before it as the one it started on, just if
that line is counted. -/
lemma newlines_shift (h : Inside g) (hdot : g.dot < g.end_)
    (hr : (shift c).run exec g = .done () g') :
    g'.newlines 0 g'.dot = g.newlines 0 g.dot ↔ g.Counted g.dot := by
  obtain ⟨hcount, hend, heq⟩ := run_shift h hdot hr
  have hlines := count_lines_zero h.1 hdot
  rw [newlines_begin_line h.1] at hlines
  have hadd := newlines_add (b := g.toBuffer) (p := 0) (q := g.dot) (e := g.end_) h.1 hdot.le
  have hall := newlines_end (b := g.toBuffer) (h.1.trans h.2)
  have hall' := newlines_end (b := g'.toBuffer) hend
  -- the lines that can be reached after the shift
  have hreach : ∀ n : ℕ, g'.find_line n = g'.next_line^[n - 1] 0 := by
    intro n
    rw [Buffer.find_line]
    congr 1
    omega
  have hland : ∀ n : ℕ, n < g.content.count '\n' →
      g'.newlines 0 (g'.skip_over_ws (g'.next_line^[n] 0)) = n := by
    intro n hn
    have hpos : 0 < g'.end_ := by
      by_contra hzero
      have hnone : g'.newlines 0 g'.end_ = 0 := newlines_eq_zero.mpr fun i hi hi' => by omega
      omega
    have hlast := newlines_add (b := g'.toBuffer) (p := 0) (q := g'.end_ - 1) (e := g'.end_)
      (by omega) (by omega)
    have hone := g'.newlines_one (g'.end_ - 1)
    rw [sub_add_cancel] at hone
    have hle : g'.newlines (g'.end_ - 1) g'.end_ ≤ 1 := by
      rw [hone]
      split <;> omega
    obtain ⟨hn', h0, -⟩ := newlines_iterate (b := g'.toBuffer) (n := n) hpos (by omega)
    rw [newlines_skip_over_ws h0, hn']
  rw [heq, hreach]
  by_cases hnl : g.mem (g.end_line g.dot) = '\n'
  · have hmore : g.newlines 0 g.dot < g.content.count '\n' := by
      by_contra hge
      have hnone : g.newlines g.dot g.end_ = 0 := by omega
      exact newlines_eq_zero.mp hnone _ g.le_end_line (end_line_lt hdot) hnl
    rw [hlines, if_pos hnl, Nat.add_sub_cancel, hland _ hmore]
    exact iff_of_true rfl (.inl hnl)
  · rw [hlines, if_neg hnl, Nat.add_zero]
    by_cases hfirst : g.begin_line g.dot = 0
    · have hzero : g.newlines 0 g.dot = 0 := by
        rw [← newlines_begin_line h.1, hfirst]
        simp [newlines]
      rw [hzero]
      refine iff_of_true ?_ (.inr hfirst)
      show g'.newlines 0 (g'.skip_over_ws 0) = 0
      rw [newlines_skip_over_ws (le_refl _)]
      simp [newlines]
    · -- the line is the last one, and the one before it is taken for it
      have hpos : g.newlines 0 g.dot ≠ 0 := by
        intro hzero
        rw [← newlines_begin_line h.1] at hzero
        exact hfirst ((starts_begin_line h.1).eq_zero (begin_line_nonneg h.1) hzero)
      rw [hland _ (by omega)]
      refine iff_of_false (by omega) fun hc => ?_
      exact hc.elim hnl hfirst

/-! ## Addresses -/

/-- The digits `a` are read as the number `n`. -/
structure Number (a : List Char) (n : ℤ) : Prop where
  nonempty : a ≠ []
  digits : ∀ c ∈ a, isdigit c = true
  value : (scan_number a).1 = n

lemma Number.cons {a : List Char} {n : ℤ} (h : Number a n) : ∃ c a', a = c :: a' ∧ isdigit c = true := by
  obtain ⟨c, a', rfl⟩ := List.exists_cons_of_ne_nil h.nonempty
  exact ⟨c, a', rfl, h.digits c List.mem_cons_self⟩

/-- What follows a number does not change it. -/
lemma scan_number_append {a rest : List Char} {n : ℤ} (h : Number a n)
    (hrest : ∀ c ∈ rest.head?, isdigit c = false) : scan_number (a ++ rest) = (n, rest) := by
  have htake : rest.takeWhile isdigit = [] := by
    cases rest with
    | nil => rfl
    | cons c rest => exact List.takeWhile_cons_of_neg (by simp [hrest c rfl])
  have hdrop : rest.dropWhile isdigit = rest := by
    cases rest with
    | nil => rfl
    | cons c rest => exact List.dropWhile_cons_of_neg (by simp [hrest c rfl])
  have hvalue := h.value
  rw [scan_number, List.takeWhile_eq_self_iff.mpr h.digits] at hvalue
  rw [scan_number, List.takeWhile_append_of_pos h.digits, List.dropWhile_append_of_pos h.digits, htake,
    hdrop, List.append_nil]
  exact Prod.ext hvalue rfl

lemma not_isblank {c : Char} (h : isdigit c = true) : isblank c = false := by
  by_contra hb
  rw [Bool.not_eq_false, isblank, Bool.or_eq_true, decide_eq_true_iff, decide_eq_true_iff] at hb
  obtain rfl | rfl := hb
  · exact absurd h (by decide)
  · exact absurd h (by decide)

/-- An address that is a number. -/
lemma run_get_one_address {a rest : List Char} {n : ℤ} (h : Number a n)
    (hrest : ∀ c ∈ rest.head?, isdigit c = false) :
    (get_one_address (a ++ rest)).run exec g = .done (n, rest) g := by
  obtain ⟨c, a', rfl, hc⟩ := h.cons
  have hscan := scan_number_append h hrest
  rw [List.cons_append] at hscan ⊢
  have hother : ∀ (d : Char) (p : List Char), isdigit d = false → c :: (a' ++ rest) ≠ d :: p := by
    intro d p hd heq
    rw [← (List.cons.inj heq).1, hc] at hd
    cases hd
  rw [get_one_address]
  show (Program.run exec _ g) = _
  split
  all_goals rename_i heq
  · exact absurd heq (hother _ _ (by decide))
  · exact absurd heq (hother _ _ (by decide))
  · exact absurd heq (hother _ _ (by decide))
  · exact absurd heq (hother _ _ (by decide))
  · exact absurd heq (hother _ _ (by decide))
  · cases heq
    rw [if_pos hc, hscan]
    rfl
  · cases heq

/-- The line that is typed begins with a number, so that it is not all lines that are meant. -/
lemma get_address_eq {a rest : List Char} {n : ℤ} (h : Number a n)
    (hrest : ∀ c ∈ rest.head?, isdigit c = false) {r : ℤ × ℤ × List Char}
    (hr : (match rest.dropWhile isblank with
      | ',' :: p => (do
        let (e, p) ← get_one_address (p.dropWhile isblank)
        return (n, e, p.dropWhile isblank) : Proc (ℤ × ℤ × List Char))
      | p => return (n, -1, p)).run exec g = .done r g) :
    (get_address (a ++ rest)).run exec g = .done r g := by
  have hone := run_get_one_address (g := g) h hrest
  obtain ⟨c, a', rfl, hc⟩ := h.cons
  rw [List.cons_append] at hone ⊢
  have hdrop : (c :: (a' ++ rest)).dropWhile isblank = c :: (a' ++ rest) :=
    List.dropWhile_cons_of_neg (by simp [not_isblank hc])
  rw [get_address, hdrop]
  show (Program.run exec _ g) = _
  split
  · rename_i heq
    cases heq
    exact absurd hc (by decide)
  · show ((get_one_address (c :: (a' ++ rest))).bind _).run exec g = _
    rw [Program.run_bind, hone]
    exact hr

lemma run_get_address_number {a rest : List Char} {n : ℤ} (h : Number a n)
    (hrest : ∀ c ∈ rest.head?, isdigit c = false)
    (hcomma : ∀ c ∈ (rest.dropWhile isblank).head?, c ≠ ',') :
    (get_address (a ++ rest)).run exec g = .done (n, -1, rest.dropWhile isblank) g := by
  refine get_address_eq h hrest ?_
  split
  · rename_i heq
    rw [heq] at hcomma
    exact absurd rfl (hcomma ',' rfl)
  · rfl

lemma run_get_address_numbers {a e rest : List Char} {n m : ℤ} (h : Number a n) (he : Number e m)
    (hrest : ∀ c ∈ rest.head?, isdigit c = false) :
    (get_address (a ++ ',' :: (e ++ rest))).run exec g = .done (n, m, rest.dropWhile isblank) g := by
  have hcomma : ∀ c ∈ (',' :: (e ++ rest)).head?, isdigit c = false := by
    intro c hc
    cases hc
    decide
  refine get_address_eq h hcomma ?_
  have hone := run_get_one_address (g := g) he hrest
  obtain ⟨c, e', rfl, hc⟩ := he.cons
  have hdrop : (c :: e' ++ rest).dropWhile isblank = c :: e' ++ rest :=
    List.dropWhile_cons_of_neg (by simp [not_isblank hc])
  rw [List.dropWhile_cons_of_neg (by decide)]
  show ((get_one_address ((c :: e' ++ rest).dropWhile isblank)).bind _).run exec g = _
  rw [hdrop, Program.run_bind, hone]
  rfl

/-- A cursor in the text stays where it is. -/
lemma run_bound_dot_inside (h0 : 0 ≤ g.dot) (h : g.dot < g.end_) :
    (edit bound_dot).run exec g = .done () g := by
  have hover : ¬ (g.end_ ≤ g.dot ∧ 0 < g.end_) := by omega
  have hbound : g.bound_dot g.dot = g.dot := by
    rw [Buffer.bound_dot, if_neg hover]
    exact if_neg (by omega)
  rw [run_edit, Vi.bound_dot, Program.bind_eq, run_look_bind]
  dsimp only
  rw [if_neg hover, if_neg (by omega)]
  show Outcome.done () { g with dot := g.bound_dot g.dot } = _
  rw [hbound]

/-- Making the cursor valid comes to an end and leaves the text alone. -/
lemma run_bound_dot_done (hpos : 0 < g.end_) :
    ∃ g' : Globals, (edit bound_dot).run exec g = .done () g' ∧ g'.toBuffer = g.toBuffer := by
  have hdone : ∃ g', Vi.bound_dot.run Edit.exec g = .done () g' := by
    rw [Vi.bound_dot, Program.bind_eq, run_look_bind]
    dsimp only
    split
    · split <;> exact ⟨_, rfl⟩
    · split <;> exact ⟨_, rfl⟩
  obtain ⟨g', hr⟩ := hdone
  exact ⟨g', (run_edit _).trans hr, rests_bound_dot g g' () hpos hr⟩

/-- A command line that begins with a number: the addresses are read, and the command is executed. -/
lemma colon_number {a rest : List Char} {n : ℤ} (h : Number a n) : colon (a ++ rest) =
    (get_address (a ++ rest)).bind fun r => (Line.of r.1 r.2.1 r.2.2).exec.bind fun ok =>
      if ok = true then edit bound_dot else pure () := by
  obtain ⟨c, a', rfl, hc⟩ := h.cons
  have hcolon : ¬ (c :: a' ++ rest).headD NUL = ':' := by
    show ¬ c = ':'
    rintro rfl
    exact absurd hc (by decide)
  have hne : c :: a' ++ rest ≠ [] := List.cons_ne_nil _ _
  rw [colon, if_neg hne]
  dsimp only
  rw [if_neg hcolon]
  rfl

lemma run_colon_number {a rest buf : List Char} {n b e : ℤ} (h : Number a n)
    (haddr : (get_address (a ++ rest)).run exec g = .done (b, e, buf) g) :
    (colon (a ++ rest)).run exec g = ((Line.of b e buf).exec.bind fun ok =>
      if ok = true then edit bound_dot else pure ()).run exec g := by
  rw [colon_number h, Program.run_bind, haddr]
  rfl

lemma begin_line_begin_line (h : 0 ≤ p) : g.begin_line (g.begin_line p) = g.begin_line p :=
  begin_line_eq (begin_line_nonneg h) (starts_begin_line h) (le_refl _) fun i hi hi' => by omega

lemma counted_begin_line (h : 0 ≤ p) (hlt : p < g.end_) :
    g.Counted (g.begin_line p) ↔ g.Counted p := by
  rw [Counted, Counted, begin_line_begin_line h, end_line_begin_line hlt]

/-- The number of the line of `p`, as the addresses take it. -/
lemma find_line_address (h : 0 ≤ p) (hlt : p < g.end_) :
    g.find_line (g.count_lines 0 (g.begin_line p)) = g.begin_line p ↔ g.Counted p := by
  have hbegin : g.begin_line p < g.end_ := lt_of_le_of_lt begin_line_le hlt
  have hfind := find_line_count_lines (b := g.toBuffer) (begin_line_nonneg h) hbegin
  rw [begin_line_begin_line h] at hfind
  exact hfind.trans (counted_begin_line h hlt)

/-- The lines that `%` stands for, from the first one on. -/
lemma range_all (hpos : 0 < g.end_) (buf : List Char) :
    (Line.of 1 (g.count_lines 0 (g.end_ - 1)) buf).range g.toEd = (0, g.end_ - 1) ↔
      g.Counted (g.end_ - 1) := by
  have hlast : g.end_ - 1 < g.end_ := by omega
  have h0 : 0 ≤ g.end_ - 1 := by omega
  have hend : g.end_line (g.end_ - 1) = g.end_ - 1 := by
    rw [end_line, if_neg (lt_irrefl _)]
  have hrange : (Line.of 1 (g.count_lines 0 (g.end_ - 1)) buf).range g.toEd =
      (0, g.end_line (g.find_line (g.count_lines 0 (g.end_ - 1)))) := by
    have hb : ¬ (Line.of 1 (g.count_lines 0 (g.end_ - 1)) buf).b < 0 := by
      show ¬ (1 : ℤ) < 0
      decide
    have he : 0 ≤ (Line.of 1 (g.count_lines 0 (g.end_ - 1)) buf).e := Int.natCast_nonneg _
    rw [Line.range, Line.first, Line.last, if_neg hb, if_pos (not_lt.mp hb), if_pos he]
    rfl
  rw [hrange, Prod.mk.injEq, and_iff_right rfl]
  constructor
  · intro h
    by_contra hc
    obtain ⟨hfind, hpos'⟩ := find_line_of_not_counted h0 hlast hc
    have hle := g.begin_line_le (p := g.end_ - 1)
    have hnl := (starts_begin_line (b := g.toBuffer) h0).previous hpos' (by omega)
    rw [hfind, hnl.2.2.2.2.1] at h
    omega
  · intro hc
    rw [find_line_of_counted h0 hlast hc, end_line_begin_line hlast, hend]

/-- Line numbers lead back to the lines they come from, with `.`, `$`, `%` and in the shift
commands, just if a newline ends the line or it is the first one. -/
theorem line_numbers (h : Inside g) (hdot : g.dot < g.end_) (rest : List Char) :
    (∀ p, 0 ≤ p → p < g.end_ →
      (g.find_line (g.count_lines 0 p) = g.begin_line p ↔ g.Counted p)) ∧
    (∃ a, (get_one_address ('.' :: rest)).run exec g = .done (a, rest) g ∧
      (g.find_line a = g.begin_line g.dot ↔ g.Counted g.dot)) ∧
    (∃ a, (get_one_address ('$' :: rest)).run exec g = .done (a, rest) g ∧
      (g.find_line a = g.begin_line (g.end_ - 1) ↔ g.Counted (g.end_ - 1))) ∧
    (∃ a, (get_address ('%' :: rest)).run exec g = .done (1, a, rest.dropWhile isblank) g ∧
      ∀ buf, (Line.of 1 a buf).range g.toEd = (0, g.end_ - 1) ↔ g.Counted (g.end_ - 1)) ∧
    ∀ c g', (shift c).run exec g = .done () g' →
      (g'.newlines 0 g'.dot = g.newlines 0 g.dot ↔ g.Counted g.dot) := by
  have hpos : 0 < g.end_ := lt_of_le_of_lt h.1 hdot
  refine ⟨?_, ?_, ?_, ?_, ?_⟩
  · exact fun p h0 hlt => find_line_count_lines h0 hlt
  · exact ⟨_, rfl, find_line_address h.1 hdot⟩
  · exact ⟨_, rfl, find_line_address (by omega) (by omega)⟩
  · exact ⟨_, rfl, range_all hpos⟩
  · exact fun c g' hr => newlines_shift h hdot hr

theorem line_numbers_second : ∃ g : Globals, g.content = ['a', '\n', 'b'] ∧ g.dot = 0 ∧
    g.find_line (g.count_lines 0 1) = g.begin_line 1 := by
  have hcontent : (opened ['a', '\n', 'b'] []).content = ['a', '\n', 'b'] := by decide +kernel
  have hdot : (opened ['a', '\n', 'b'] []).dot = 0 := by decide +kernel
  have hend : (opened ['a', '\n', 'b'] []).end_ = 3 := by decide +kernel
  have hlines := line_numbers (g := opened ['a', '\n', 'b'] []) (by rw [Inside, hdot, hend]; omega)
    (by omega) []
  exact ⟨_, hcontent, hdot, (hlines.1 1 (by omega) (by omega)).mpr (.inl (by decide +kernel))⟩

/-- A second line that no newline ends is taken for the first one. -/
theorem line_number_lost : ∃ g : Globals, g.content = ['a', '\n', 'b'] ∧
    g.find_line (g.count_lines 0 2) = 0 ∧ g.begin_line 2 = 2 :=
  ⟨opened ['a', '\n', 'b'] [], by decide +kernel⟩

end EspLinux.Vi
