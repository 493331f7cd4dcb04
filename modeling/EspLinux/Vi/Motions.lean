import EspLinux.Vi.Pointers

/-!
# vi: commands that leave the text alone

The commands that move the cursor do not change the text, and neither does finding the range of an
operator, as long as there is a text: only in an empty buffer do they put a newline.
-/

namespace EspLinux.Vi

open Lib

variable {α β : Type} {g g' : Globals}

/-- The operation does not touch the text. -/
def Still : ∀ β : Type, Edit β → Prop
  | _, .stupid_insert _ _ _ | _, .string_insert _ _ | _, .text_hole_delete _ _ _
  | _, .poke _ _ => False
  | _, _ => True

lemma exec_still {o : Edit β} {b : β} (ho : Still β o) (hr : Edit.exec β o g = .done b g') :
    g'.toBuffer = g.toBuffer := by
  cases o with
  | look | view | status_line | fuel | end_cmd_q | scroll | set_mark | check_context =>
    cases hr
    rfl
  | indicate_error =>
    cases hr
    split
    · exact (Globals.refresh_view _).1.trans (Globals.refresh_view _).1
    · rfl
  | get_one_char | get_input_line =>
    simp only [Edit.exec, Edit.typed] at hr
    split at hr <;> cases hr
    rfl
  | goto_mark | swap_context =>
    simp only [Edit.exec] at hr
    split at hr
    · split at hr <;> cases hr
      rfl
    · cases hr
      rfl
  | stupid_insert | string_insert | text_hole_delete | poke => exact ho.elim
  | stop => cases hr

/-- Where there is a text, the command leaves it alone. -/
def Rests (p : Cmd α) : Prop :=
  ∀ (g g' : Globals) (a : α), 0 < g.end_ → p.run Edit.exec g = .done a g' →
    g'.toBuffer = g.toBuffer

lemma rests_perform {o : Edit α} (ho : Still α o) : Rests (Program.perform o) := by
  intro g g' a _ hr
  rw [Program.run_perform] at hr
  exact exec_still ho hr

lemma rests_pure (a : α) : Rests (pure a : Cmd α) := by
  intro g g' b _ hr
  cases hr
  rfl

lemma Rests.bind {p : Cmd α} {f : α → Cmd β} (hp : Rests p) (hf : ∀ a, Rests (f a)) :
    Rests (p.bind f) := by
  intro g g' b hpos hr
  obtain ⟨a, g₁, hr₁, hr₂⟩ := (Program.run_bind_eq_done _).mp hr
  have h₁ := hp g g₁ a hpos hr₁
  exact (hf a g₁ g' b (by rw [h₁]; exact hpos) hr₂).trans h₁

/-! ## Small commands -/

lemma rests_look : Rests look := rests_perform (o := .look) trivial

lemma rests_view (f : Ed → View) : Rests (view f) := rests_perform (o := .view f) trivial

lemma rests_move (f : Ed → ℤ) : Rests (move f) := rests_view _

lemma rests_count (f : Ed → ℤ) : Rests (count f) := rests_view _

lemma rests_status_line (msg : String) : Rests (status_line msg) :=
  rests_perform (o := .status_line msg) trivial

lemma rests_indicate_error : Rests indicate_error := rests_perform (o := .indicate_error) trivial

lemma rests_get_one_char : Rests get_one_char := rests_perform (o := .get_one_char) trivial

lemma rests_bound_dot : Rests bound_dot := by
  rw [bound_dot]
  refine rests_look.bind fun s => ?_
  dsimp only
  split_ifs
  · exact rests_indicate_error.bind fun _ => rests_indicate_error.bind fun _ => rests_move _
  · exact rests_indicate_error.bind fun _ => rests_move _
  · exact rests_indicate_error.bind fun _ => rests_move _
  · exact rests_move _

lemma rests_settle (c : Char) : Rests (settle c) := by
  have hoff : Rests off_newline := by
    rw [off_newline]
    refine rests_look.bind fun s => ?_
    split
    · exact rests_move _
    · exact rests_pure _
  have hlast : Rests (do
      Program.perform (.check_context c)
      if ¬ isdigit c then count fun _ => 0
      off_newline : Cmd Unit) := by
    refine Rests.bind (rests_perform (o := .check_context c) trivial) fun _ => ?_
    split
    · exact (rests_count _).bind fun _ => hoff
    · exact hoff
  rw [settle]
  refine rests_look.bind fun s => ?_
  dsimp only
  by_cases hend : s.dot ≠ s.end_
  · rw [if_pos hend]
    exact rests_bound_dot.bind fun _ => hlast
  · rw [if_neg hend]
    exact hlast

/-- The end of `do_cmd` puts a newline into an empty buffer only. -/
lemma rests_dc1 (c : Char) : Rests (dc1 c) := by
  intro g g' u hpos hr
  rw [dc1, Program.bind_eq, run_look_bind] at hr
  dsimp only at hr
  rw [if_neg (by omega)] at hr
  exact rests_settle c g g' u hpos hr

lemma rests_again {body : Cmd Bool} (h : Rests body) : Rests (again body) := by
  have hloop : ∀ n, Rests (repeated body n) := by
    intro n
    induction n with
    | zero => exact rests_pure ()
    | succ n ih =>
      rw [repeated]
      refine h.bind fun on => ?_
      split
      · refine rests_look.bind fun s => (rests_count _).bind fun _ => ?_
        split
        · exact ih
        · exact rests_pure _
      · exact rests_pure _
  rw [again]
  exact rests_look.bind fun s => hloop _

lemma rests_each {body : Cmd Unit} (h : Rests body) : Rests (each body) :=
  rests_again (h.bind fun _ => rests_pure true)

/-! ## Commands that move the cursor -/

lemma rests_dot_scroll (cnt : ℕ) (dir : Dir) : Rests (dot_scroll cnt dir) :=
  Rests.bind (rests_perform (o := .scroll cnt dir) trivial) fun _ => rests_move _

lemma rests_find_pattern (rel : Dir) : Rests (find_pattern rel) := by
  rw [find_pattern]
  refine rests_look.bind fun s => ?_
  split
  · exact (rests_status_line _).bind fun _ => rests_pure _
  · dsimp only
    split
    · exact (rests_move _).bind fun _ => rests_pure _
    · split
      · exact (rests_move _).bind fun _ => (rests_status_line _).bind fun _ => rests_pure _
      · exact (rests_status_line _).bind fun _ => rests_pure _

lemma rests_search (c : Char) : Rests (search c) := by
  rw [search]
  refine Rests.bind (rests_perform (o := .get_input_line c) trivial) fun q => ?_
  split
  · exact rests_pure _
  · exact rests_again (rests_find_pattern _)
  · exact (rests_view _).bind fun _ => rests_again (rests_find_pattern _)

lemma rests_digit (c : Char) : Rests (digit c) := by
  rw [digit]
  refine rests_look.bind fun s => ?_
  split_ifs
  · exact (rests_move _).bind fun _ => rests_pure _
  · exact (rests_count _).bind fun _ => (rests_status_line _).bind fun _ => rests_pure _
  · exact (rests_count _).bind fun _ => rests_pure _

lemma rests_name_register : Rests name_register := by
  rw [name_register]
  refine rests_get_one_char.bind fun c1 => ?_
  dsimp only
  split
  · exact rests_view _
  · exact rests_indicate_error

lemma rests_goto_mark : Rests goto_mark := by
  rw [goto_mark]
  refine rests_get_one_char.bind fun c1 => ?_
  dsimp only
  split_ifs
  · refine Rests.bind (rests_perform (o := .goto_mark _) trivial) fun q => ?_
    cases q with
    | none => exact rests_pure _
    | some q => exact (rests_move _).bind fun _ => rests_move _
  · refine Rests.bind (rests_perform (o := .swap_context) trivial) fun q => ?_
    cases q with
    | none => exact rests_move _
    | some q => exact (rests_move _).bind fun _ => rests_move _
  · exact rests_indicate_error

lemma rests_set_mark : Rests set_mark := by
  rw [set_mark]
  refine rests_get_one_char.bind fun c1 => ?_
  dsimp only
  split
  · exact rests_perform (o := .set_mark _) trivial
  · exact rests_indicate_error

lemma rests_pair : Rests pair := by
  rw [pair]
  refine rests_look.bind fun s => ?_
  split
  · split
    · exact rests_move _
    · exact rests_indicate_error
  · split
    · exact rests_indicate_error
    · exact rests_pure _

lemma rests_find_again (f : Ed → ℤ) : Rests (find_again f) := by
  refine rests_again (rests_look.bind fun s => ?_)
  split
  · exact rests_pure _
  · exact (rests_move _).bind fun _ => rests_pure _

lemma rests_till : Rests till := by
  rw [till]
  refine rests_get_one_char.bind fun c1 => (rests_view _).bind fun _ => ?_
  refine (rests_find_again _).bind fun _ => (rests_dc1 _).bind fun _ => rests_look.bind fun s => ?_
  split
  · exact (rests_move _).bind fun _ => rests_view _
  · exact rests_view _

lemma rests_screen_line {step finish : Cmd Unit} (hstep : Rests step) (hfinish : Rests finish)
    (from_ : Ed → ℤ) (c : Char) : Rests (screen_line from_ step c finish) := by
  rw [screen_line]
  refine (rests_move _).bind fun _ => (rests_count _).bind fun _ => rests_look.bind fun s => ?_
  refine (rests_count _).bind fun _ => ?_
  split
  · exact hstep.bind fun _ => (rests_dc1 c).bind fun _ => hfinish
  · exact hfinish

lemma rests_gg : Rests gg := by
  rw [gg]
  refine rests_get_one_char.bind fun c1 => ?_
  split
  · exact rests_status_line _
  · refine rests_look.bind fun s => ?_
    split
    · exact (rests_count _).bind fun _ => rests_move _
    · exact rests_move _

lemma rests_by_word (dir : Dir) : Rests (by_word dir) := by
  refine rests_again (rests_look.bind fun s => ?_)
  split
  · exact rests_pure _
  · exact (rests_move _).bind fun _ => rests_pure _

lemma rests_paragraph (dir : Dir) : Rests (paragraph dir) := by
  rw [paragraph]
  refine rests_look.bind fun s => ?_
  split
  · exact rests_move _
  · exact rests_pure _

/-- No command that moves the cursor changes the text. -/
lemma rests_move_exec (m : Move) (c : Char) : Rests (m.exec c) := by
  have htrue : ∀ {p : Cmd Unit}, Rests p → Rests (do p; return true : Cmd Bool) :=
    fun h => h.bind fun _ => rests_pure true
  rw [Move.exec]
  refine rests_look.bind fun s => ?_
  cases m with
  | digit => exact rests_digit c
  | page_up | page_down | half_up | half_down | line_up | line_down =>
    exact htrue (rests_dot_scroll _ _)
  | status => exact rests_pure _
  | left | right | up | down | plus | minus | dollar | Word | word =>
    exact htrue (rests_each (rests_move _))
  | register => exact htrue rests_name_register
  | goto_mark => exact htrue rests_goto_mark
  | mark => exact htrue rests_set_mark
  | pair => exact htrue rests_pair
  | find =>
    exact rests_get_one_char.bind fun c1 => (rests_view _).bind fun _ => htrue (rests_find_again _)
  | find_next | find_prev => exact htrue (rests_find_again _)
  | till => exact htrue rests_till
  | search => exact htrue (rests_search c)
  | search_opposite | search_again => exact htrue (rests_again (rests_find_pattern _))
  | para_back | para_forward => exact htrue (rests_paragraph _)
  | word_back | word_end => exact htrue (rests_by_word _)
  | gg => exact htrue rests_gg
  | goto | middle | caret | bar | home => exact htrue (rests_move _)
  | top => exact htrue (rests_screen_line (rests_each (rests_move _)) (rests_move _) _ _)
  | bottom => exact htrue (rests_screen_line (rests_each (rests_move _)) (rests_move _) _ _)

lemma rests_do_move (c : Char) : Rests (do_move c) := by
  rw [do_move]
  split
  · refine (rests_move_exec _ c).bind fun on => ?_
    split
    · exact rests_dc1 c
    · exact rests_pure _
  · exact rests_pure _

/-! ## Ranges -/

lemma Buffer.end_line_le {b : Buffer} {p : ℤ} (h : p ≤ b.end_) : b.end_line p ≤ b.end_ := by
  obtain hlt | heq := h.lt_or_eq
  · exact (Buffer.end_line_lt hlt).le
  · rw [Buffer.end_line, if_neg (by omega)]
    exact h

lemma Ed.back_off_bounds {s : Ed} (h : 0 ≤ s.dot) : 0 ≤ s.back_off ∧ s.back_off ≤ s.dot := by
  simp only [Ed.back_off]
  split_ifs <;> omega

/-- After a command that moves the cursor it is in the text. -/
lemma inside_do_move {c : Char} {u : Unit} (hpos : 0 < g.end_) (h : Inside g)
    (hr : (do_move c).run Edit.exec g = .done u g') : Inside g' := by
  rw [do_move] at hr
  split at hr
  · rename_i m _
    obtain ⟨on, g₁, hr₁, hr₂⟩ := (Program.run_bind_eq_done _).mp hr
    have hb₁ := rests_move_exec m c g g₁ on hpos hr₁
    cases on with
    | true =>
      rw [if_pos rfl, dc1, Program.bind_eq, run_look_bind] at hr₂
      dsimp only at hr₂
      have hpos₁ : 0 < g₁.end_ := by rw [hb₁]; exact hpos
      rw [if_neg (by omega)] at hr₂
      exact (settled_settle hpos₁ hr₂).inside
    | false =>
      obtain ⟨hdot, hend, -⟩ := run_move_exec hr₁
      cases hr₂
      exact h.same hdot hend
  · cases hr
    exact h

/-- The ends of the range of an operator lie in the text, which stays as it is. -/
lemma run_find_ends {c : Char} {r : ℤ × ℤ} (h : Inside g) (hdot : g.dot < g.end_)
    (hr : (find_ends c).run Edit.exec g = .done r g') :
    g'.toBuffer = g.toBuffer ∧ (0 ≤ r.1 ∧ r.1 ≤ g.end_) ∧ 0 ≤ r.2 ∧ r.2 ≤ g.end_ := by
  have hpos : 0 < g.end_ := lt_of_le_of_lt h.1 hdot
  have hmoved : ∀ {u : Unit} {g₁ : Globals}, (do_move c).run Edit.exec g = .done u g₁ →
      g₁.toBuffer = g.toBuffer ∧ 0 ≤ g₁.dot ∧ g₁.dot ≤ g.end_ := by
    intro u g₁ hr₁
    have hb := rests_do_move c g g₁ u hpos hr₁
    have hin := inside_do_move hpos h hr₁
    exact ⟨hb, hin.1, hin.2.trans_eq (congrArg Buffer.end_ hb)⟩
  rw [find_ends, Program.bind_eq, run_look_bind] at hr
  dsimp only at hr
  split_ifs at hr
  · cases hr
    have hbegin := Buffer.begin_line_nonneg (b := g.toBuffer) h.1
    have hle := g.begin_line_le (p := g.dot)
    have hlast := Buffer.iterate_next_line_le (b := g.toBuffer) (p := g.begin_line g.dot)
      (g.cmdcnt - 1).toNat (by omega)
    have hge := Buffer.le_iterate_next_line (b := g.toBuffer) (p := g.begin_line g.dot)
      (g.cmdcnt - 1).toNat
    have hend := g.le_end_line (p := g.next_line^[(g.cmdcnt - 1).toNat] (g.begin_line g.dot))
    refine ⟨rfl, ⟨hbegin, by omega⟩, by omega, Buffer.end_line_le (by omega)⟩
  · obtain ⟨u, g₁, hr₁, hr₂⟩ := (Program.run_bind_eq_done _).mp hr
    obtain ⟨hb, h0, hle⟩ := hmoved hr₁
    cases hr₂
    exact ⟨hb, h, h0, hle⟩
  · obtain ⟨u, g₁, hr₁, hr₂⟩ := (Program.run_bind_eq_done _).mp hr
    obtain ⟨hb, h0, hle⟩ := hmoved hr₁
    cases hr₂
    have hback := Ed.back_off_bounds (s := g₁.toEd) h0
    exact ⟨hb, h, hback.1, hback.2.trans hle⟩
  · obtain ⟨u, g₁, hr₁, hr₂⟩ := (Program.run_bind_eq_done _).mp hr
    obtain ⟨hb, h0, hle⟩ := hmoved hr₁
    cases hr₂
    refine ⟨hb, ⟨Buffer.begin_line_nonneg h0, Buffer.begin_line_le.trans hle⟩, ?_⟩
    exact ⟨h.1.trans Buffer.le_end_line, Buffer.end_line_le h.2⟩
  · obtain ⟨u, g₁, hr₁, hr₂⟩ := (Program.run_bind_eq_done _).mp hr
    obtain ⟨hb, h0, hle⟩ := hmoved hr₁
    cases hr₂
    refine ⟨hb, ⟨Buffer.begin_line_nonneg h.1, Buffer.begin_line_le.trans h.2⟩, ?_⟩
    refine ⟨h0.trans Buffer.le_end_line, ?_⟩
    have hle₁ : g₁.dot ≤ g₁.end_ := by rw [hb]; exact hle
    exact (Buffer.end_line_le hle₁).trans_eq (congrArg Buffer.end_ hb)
  · cases hr
    exact ⟨rfl, h, h⟩

/-- The range of an operator lies in the text, and finding it leaves the cursor and the text as they
are. -/
lemma run_find_range {c : Char} {r : ℤ × ℤ × Bool} (h : Inside g) (hdot : g.dot < g.end_)
    (hr : (find_range c).run Edit.exec g = .done r g') :
    g'.toBuffer = g.toBuffer ∧ g'.dot = g.dot ∧ 0 ≤ r.1 ∧ r.1 ≤ r.2.1 ∧ r.2.1 ≤ g.end_ := by
  rw [find_range, Program.bind_eq, run_look_bind] at hr
  obtain ⟨⟨p, q⟩, g₁, hr₁, hr₂⟩ := (Program.run_bind_eq_done _).mp hr
  obtain ⟨hb, ⟨hp, hp'⟩, hq, hq'⟩ := run_find_ends h hdot hr₁
  cases hr₂
  refine ⟨hb, rfl, ?_⟩
  dsimp only at hp hp' hq hq' ⊢
  split_ifs <;> omega

end EspLinux.Vi
