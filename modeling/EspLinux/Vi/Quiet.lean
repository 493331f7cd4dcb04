import EspLinux.Vi.Command

/-!
# vi: what the commands that move the cursor are made of

The commands that move the cursor use few operations: none that changes the text, and none that
writes to the register or the pointer kept for `U`.  Besides, they may go through the end of
`do_cmd`.  What holds of these parts, and of two commands one after the other if it holds of both,
holds of all of them.
-/

namespace EspLinux.Vi

open Lib

variable {α β : Type}

/-! ## Parts -/

/-- Setting the view so does not write to what is kept for `U`. -/
def TameView (f : Ed → View) : Prop :=
  ∀ s, s.YDreg < Ureg →
    (f s).cur_line = s.cur_line ∧ (f s).reg Ureg = s.reg Ureg ∧ (f s).YDreg < Ureg

/-- The operation does not write to what is kept for `U`. -/
def TameEdit : ∀ β : Type, Edit β → Prop
  | _, .view f => TameView f
  | _, _ => True

/-- The operation changes neither the text nor what is kept for `U`. -/
def QuietEdit : ∀ β : Type, Edit β → Prop
  | _, .stupid_insert _ _ _ | _, .string_insert _ _ | _, .text_hole_delete _ _ _
  | _, .poke _ _ => False
  | _, .view f => TameView f
  | _, _ => True

/-- A command made of such operations and, where `D` holds, of the end of `do_cmd`. -/
inductive Quiet (D : Prop) : ∀ {α : Type}, Cmd α → Prop
  | pure {α : Type} (a : α) : Quiet D (.ret a : Cmd α)
  | op {α : Type} {o : Edit α} (h : QuietEdit α o) : Quiet D (.perform o)
  | bind {α β : Type} {p : Cmd α} {f : α → Cmd β} (h : Quiet D p)
    (hf : ∀ a, Quiet D (f a)) : Quiet D (p.bind f)
  | dc1 (h : D) (c : Char) : Quiet D (dc1 c)

variable {D : Prop}

/-! ## Small commands -/

lemma quiet_pure (a : α) : Quiet D (pure a : Cmd α) := .pure a

lemma quiet_view {f : Ed → View} (h : TameView f) : Quiet D (view f) := .op h

/-- Setting anything but registers. -/
lemma quiet_set {f : Ed → View} (h : ∀ s, (f s).cur_line = s.cur_line ∧ (f s).reg = s.reg ∧
    (f s).YDreg = s.YDreg) : Quiet D (view f) :=
  quiet_view fun s hs => ⟨(h s).1, congrFun (h s).2.1 Ureg, (h s).2.2 ▸ hs⟩

lemma quiet_move (f : Ed → ℤ) : Quiet D (move f) := quiet_set fun _ => ⟨rfl, rfl, rfl⟩

lemma quiet_count (f : Ed → ℤ) : Quiet D (count f) := quiet_set fun _ => ⟨rfl, rfl, rfl⟩

lemma quiet_look : Quiet D look := .op trivial

lemma quiet_status_line (msg : String) : Quiet D (status_line msg) := .op trivial

lemma quiet_indicate_error : Quiet D indicate_error := .op trivial

lemma quiet_get_one_char : Quiet D get_one_char := .op trivial

lemma quiet_bound_dot : Quiet D bound_dot := by
  rw [bound_dot]
  refine quiet_look.bind fun s => ?_
  dsimp only
  split_ifs
  · exact quiet_indicate_error.bind fun _ => quiet_indicate_error.bind fun _ => quiet_move _
  · exact quiet_indicate_error.bind fun _ => quiet_move _
  · exact quiet_indicate_error.bind fun _ => quiet_move _
  · exact quiet_move _

lemma quiet_settle (c : Char) : Quiet D (settle c) := by
  have hoff : Quiet D off_newline := by
    rw [off_newline]
    refine quiet_look.bind fun s => ?_
    split
    · exact quiet_move _
    · exact quiet_pure _
  have hcontext : Quiet D (Program.perform (.check_context c)) := .op trivial
  have hlast : Quiet D (do
      Program.perform (.check_context c)
      if ¬ isdigit c then count fun _ => 0
      off_newline : Cmd Unit) := by
    refine hcontext.bind fun _ => ?_
    split
    · exact (quiet_count _).bind fun _ => hoff
    · exact hoff
  rw [settle]
  refine quiet_look.bind fun s => ?_
  dsimp only
  by_cases hend : s.dot ≠ s.end_
  · rw [if_pos hend]
    exact quiet_bound_dot.bind fun _ => hlast
  · rw [if_neg hend]
    exact hlast

/-! ## Repetition -/

lemma quiet_again {body : Cmd Bool} (h : Quiet D body) : Quiet D (again body) := by
  have hloop : ∀ n, Quiet D (repeated body n) := by
    intro n
    induction n with
    | zero => exact quiet_pure ()
    | succ n ih =>
      rw [repeated]
      refine h.bind fun on => ?_
      split
      · refine quiet_look.bind fun s => (quiet_count _).bind fun _ => ?_
        split
        · exact ih
        · exact quiet_pure _
      · exact quiet_pure _
  rw [again]
  exact quiet_look.bind fun s => hloop _

lemma quiet_each {body : Cmd Unit} (h : Quiet D body) : Quiet D (each body) :=
  quiet_again (h.bind fun _ => quiet_pure true)

/-! ## Commands that move the cursor -/

lemma quiet_dot_scroll (cnt : ℕ) (dir : Dir) : Quiet D (dot_scroll cnt dir) :=
  Quiet.bind (.op trivial) fun _ => quiet_move _

lemma quiet_find_pattern (rel : Dir) : Quiet D (find_pattern rel) := by
  rw [find_pattern]
  refine quiet_look.bind fun s => ?_
  split
  · exact (quiet_status_line _).bind fun _ => quiet_pure _
  · dsimp only
    split
    · exact (quiet_move _).bind fun _ => quiet_pure _
    · split
      · exact (quiet_move _).bind fun _ => (quiet_status_line _).bind fun _ => quiet_pure _
      · exact (quiet_status_line _).bind fun _ => quiet_pure _

lemma quiet_search (c : Char) : Quiet D (search c) := by
  rw [search]
  refine Quiet.bind (.op trivial) fun q => ?_
  split
  · exact quiet_pure _
  · exact quiet_again (quiet_find_pattern _)
  · have hset : Quiet D (view fun s => { s.toView with last_search_pattern := some q }) :=
      quiet_set fun _ => ⟨rfl, rfl, rfl⟩
    exact hset.bind fun _ => quiet_again (quiet_find_pattern _)

lemma quiet_digit (c : Char) : Quiet D (digit c) := by
  rw [digit]
  refine quiet_look.bind fun s => ?_
  split_ifs
  · exact (quiet_move _).bind fun _ => quiet_pure _
  · exact (quiet_count _).bind fun _ => (quiet_status_line _).bind fun _ => quiet_pure _
  · exact (quiet_count _).bind fun _ => quiet_pure _

lemma quiet_name_register : Quiet D name_register := by
  rw [name_register]
  refine quiet_get_one_char.bind fun c1 => ?_
  dsimp only
  split
  · rename_i hlower
    refine quiet_view fun s hs => ⟨rfl, rfl, ?_⟩
    have hz : (tolower c1).toNat ≤ 122 := by
      have h : (decide ('a' ≤ tolower c1) && decide (tolower c1 ≤ 'z')) = true := hlower
      simp only [Bool.and_eq_true, decide_eq_true_eq] at h
      exact h.2
    show (tolower c1).toNat - 97 < 27
    omega
  · exact quiet_indicate_error

lemma quiet_goto_mark : Quiet D goto_mark := by
  rw [goto_mark]
  refine quiet_get_one_char.bind fun c1 => ?_
  dsimp only
  split_ifs
  · refine Quiet.bind (.op trivial) fun q => ?_
    cases q with
    | none => exact quiet_pure _
    | some q => exact (quiet_move _).bind fun _ => quiet_move _
  · refine Quiet.bind (.op trivial) fun q => ?_
    cases q with
    | none => exact quiet_move _
    | some q => exact (quiet_move _).bind fun _ => quiet_move _
  · exact quiet_indicate_error

lemma quiet_set_mark : Quiet D set_mark := by
  rw [set_mark]
  refine quiet_get_one_char.bind fun c1 => ?_
  dsimp only
  split
  · exact .op trivial
  · exact quiet_indicate_error

lemma quiet_pair : Quiet D pair := by
  rw [pair]
  refine quiet_look.bind fun s => ?_
  split
  · split
    · exact quiet_move _
    · exact quiet_indicate_error
  · split
    · exact quiet_indicate_error
    · exact quiet_pure _

lemma quiet_find_again (f : Ed → ℤ) : Quiet D (find_again f) := by
  refine quiet_again (quiet_look.bind fun s => ?_)
  split
  · exact quiet_pure _
  · exact (quiet_move _).bind fun _ => quiet_pure _

lemma quiet_set_forward_char (c : Char) : Quiet D (set_forward_char c) :=
  quiet_set fun _ => ⟨rfl, rfl, rfl⟩

lemma quiet_till : Quiet True till := by
  rw [till]
  refine quiet_get_one_char.bind fun c1 => (quiet_set_forward_char c1).bind fun _ => ?_
  refine (quiet_find_again _).bind fun _ => (Quiet.dc1 trivial _).bind fun _ => ?_
  refine quiet_look.bind fun s => ?_
  split
  · exact (quiet_move _).bind fun _ => quiet_set_forward_char _
  · exact quiet_set_forward_char _

lemma quiet_screen_line {step finish : Cmd Unit} (hstep : Quiet True step)
    (hfinish : Quiet True finish) (from_ : Ed → ℤ) (c : Char) :
    Quiet True (screen_line from_ step c finish) := by
  rw [screen_line]
  refine (quiet_move _).bind fun _ => (quiet_count _).bind fun _ => quiet_look.bind fun s => ?_
  refine (quiet_count _).bind fun _ => ?_
  split
  · exact hstep.bind fun _ => (Quiet.dc1 trivial c).bind fun _ => hfinish
  · exact hfinish

lemma quiet_gg : Quiet True gg := by
  rw [gg]
  refine quiet_get_one_char.bind fun c1 => ?_
  split
  · exact quiet_status_line _
  · refine quiet_look.bind fun s => ?_
    split
    · exact (quiet_count _).bind fun _ => quiet_move _
    · exact quiet_move _

lemma quiet_by_word (dir : Dir) : Quiet True (by_word dir) := by
  refine quiet_again (quiet_look.bind fun s => ?_)
  split
  · exact quiet_pure _
  · exact (quiet_move _).bind fun _ => quiet_pure _

lemma quiet_paragraph (dir : Dir) : Quiet True (paragraph dir) := by
  rw [paragraph]
  refine quiet_look.bind fun s => ?_
  split
  · exact quiet_move _
  · exact quiet_pure _

lemma quiet_move_exec (m : Move) (c : Char) : Quiet True (m.exec c) := by
  have htrue : ∀ {p : Cmd Unit}, Quiet True p → Quiet True (do p; return true : Cmd Bool) :=
    fun h => h.bind fun _ => quiet_pure true
  rw [Move.exec]
  refine quiet_look.bind fun s => ?_
  cases m with
  | digit => exact quiet_digit c
  | page_up | page_down | half_up | half_down | line_up | line_down =>
    exact htrue (quiet_dot_scroll _ _)
  | status => exact quiet_pure _
  | left | right | up | down | plus | minus | dollar | Word | word =>
    exact htrue (quiet_each (quiet_move _))
  | register => exact htrue quiet_name_register
  | goto_mark => exact htrue quiet_goto_mark
  | mark => exact htrue quiet_set_mark
  | pair => exact htrue quiet_pair
  | find =>
    refine quiet_get_one_char.bind fun c1 => (quiet_set_forward_char c1).bind fun _ => ?_
    exact htrue (quiet_find_again _)
  | find_next | find_prev => exact htrue (quiet_find_again _)
  | till => exact htrue quiet_till
  | search => exact htrue (quiet_search c)
  | search_opposite | search_again => exact htrue (quiet_again (quiet_find_pattern _))
  | para_back | para_forward => exact htrue (quiet_paragraph _)
  | word_back | word_end => exact htrue (quiet_by_word _)
  | gg => exact htrue quiet_gg
  | goto | middle | caret | bar | home => exact htrue (quiet_move _)
  | top => exact htrue (quiet_screen_line (quiet_each (quiet_move _)) (quiet_move _) _ _)
  | bottom => exact htrue (quiet_screen_line (quiet_each (quiet_move _)) (quiet_move _) _ _)

lemma quiet_do_move (c : Char) : Quiet True (do_move c) := by
  rw [do_move]
  split
  · refine (quiet_move_exec _ c).bind fun on => ?_
    split
    · exact Quiet.dc1 trivial c
    · exact quiet_pure _
  · exact quiet_pure _

lemma quiet_find_ends (c : Char) : Quiet True (find_ends c) := by
  rw [find_ends]
  refine quiet_look.bind fun s => ?_
  split_ifs
  · exact quiet_pure _
  · exact (quiet_do_move c).bind fun _ => quiet_look.bind fun t => quiet_pure _
  · refine (quiet_do_move c).bind fun _ => (quiet_move _).bind fun _ => ?_
    exact quiet_look.bind fun t => quiet_pure _
  · refine (quiet_do_move c).bind fun _ => (quiet_move _).bind fun _ => ?_
    exact quiet_look.bind fun t => quiet_pure _
  · refine (quiet_do_move c).bind fun _ => (quiet_move _).bind fun _ => ?_
    exact quiet_look.bind fun t => quiet_pure _
  · exact quiet_pure _

lemma quiet_find_range (c : Char) : Quiet True (find_range c) := by
  rw [find_range]
  refine quiet_look.bind fun s => (quiet_find_ends c).bind fun r => quiet_look.bind fun t => ?_
  exact (quiet_move _).bind fun _ => quiet_pure _

end EspLinux.Vi
