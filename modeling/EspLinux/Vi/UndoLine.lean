import EspLinux.Vi.DeletePut
import EspLinux.Vi.Remember

/-!
# vi: undoing the changes of a line

`U` replaces the line of the cursor by the copy that the main loop has kept of it.  The loop copies
a line when it begins at another address than the one it copied before.  So it does not notice that
the cursor has come to another line if that one begins where the last one did, as it is after `dd`,
and it copies a changed line anew when the text has been moved.  The copy is a string, which ends at
the first NUL; and where the last of several lines is taken out, `text_hole_delete` gives a position
before the newline of the line above.
-/

namespace EspLinux.Vi

open Lib

variable {α β : Type} {g g' : Globals} {pre post : List (List Char)} {l l' : List Char}

/-! ## The text stays where it is -/

/-- A new buffer is made. -/
def NewBuffer : ∀ β : Type, Op β → Prop
  | _, .inr (.fresh_buffer _ _) => True
  | _, _ => False

instance (β : Type) (o : Op β) : Decidable (NewBuffer β o) :=
  match β, o with
  | _, .inr (.fresh_buffer _ _) => inferInstanceAs (Decidable True)
  | _, .inl _ => inferInstanceAs (Decidable False)
  | _, .inr .refresh | _, .inr (.set_mode _) | _, .inr .top | _, .inr .createScreen
  | _, .inr .rawmode | _, .inr .hit_return | _, .inr (.remember _) | _, .inr .repeat_cmd
  | _, .inr (.check _) | _, .inr (.next_line _) | _, .inr (.count_lines _ _)
  | _, .inr (.mark_line _) | _, .inr (.file_size _) | _, .inr .loaded
  | _, .inr (.file_insert _ _ _) | _, .inr .strerror | _, .inr (.file_write _ _ _ _ _)
  | _, .inr .touch | _, .inr (.leave _) | _, .inr .start => inferInstanceAs (Decidable False)

/-- What is inserted fits, and no new buffer is made. -/
def InPlace (β : Type) (o : Op β) (g : Globals) : Prop := HasRoom β o g ∧ ¬ NewBuffer β o

instance (β : Type) (o : Op β) (g : Globals) : Decidable (InPlace β o g) :=
  inferInstanceAs (Decidable (_ ∧ _))

lemma block_edit {o : Edit β} {b : β} (h : HasRoom β (.inl o) g)
    (hr : Edit.exec β o g = .done b g') : g'.block = g.block := by
  cases o with
  | look | fuel | view | status_line | scroll | set_mark | check_context | poke | end_cmd_q =>
    cases hr
    rfl
  | indicate_error =>
    cases hr
    split
    · exact ((unmoved_refresh g).trans (unmoved_refresh g.refresh)).block
    · rfl
  | get_one_char | get_input_line =>
    obtain ⟨q, rfl⟩ := typed_done hr
    rfl
  | stupid_insert p c held =>
    simp only [Edit.exec] at hr
    split at hr <;> cases hr
    exact (unmoved_insert (p := p) (s := [c]) h).block
  | string_insert p s =>
    simp only [Edit.exec] at hr
    split at hr <;> cases hr
    exact (unmoved_insert (p := p) h).block
  | text_hole_delete p q =>
    cases hr
    exact (unmoved_deleted g p q).block
  | goto_mark | swap_context =>
    simp only [Edit.exec] at hr
    split at hr
    · split at hr <;> cases hr
      rfl
    · cases hr
      rfl
  | stop => cases hr

lemma block_sys {o : Sys β} {b : β} (h : InPlace β (.inr o) g)
    (hr : Sys.exec β o g = .done b g') : g'.block = g.block := by
  cases o with
  | refresh =>
    cases hr
    exact (unmoved_refresh g).block
  | set_mode | top | createScreen | rawmode | strerror | loaded | touch | leave | start =>
    cases hr
    rfl
  | fresh_buffer => exact absurd trivial h.2
  | hit_return =>
    obtain ⟨overrun, q, rfl⟩ := hit_return_done hr
    rfl
  | remember | repeat_cmd =>
    cases hr
    split <;> rfl
  | check | count_lines | next_line =>
    simp only [Sys.exec] at hr
    split_ifs at hr <;> cases hr
    all_goals rfl
  | mark_line =>
    simp only [Sys.exec] at hr
    split at hr
    · cases hr
      rfl
    · split at hr <;> cases hr
      rfl
  | file_size fn =>
    simp only [Sys.exec] at hr
    split at hr <;> cases hr
    all_goals rfl
  | file_insert fn p ro =>
    cases hr
    exact (unmoved_file_insert fn p ro h.1).block
  | file_write colon leaving fn first last =>
    have hwrite := (unmoved_file_write g fn first last).block
    cases hr
    split
    · exact hwrite
    · exact hwrite

lemma run_inPlace {p : Proc α} {a : α} (h : p.Along exec InPlace g)
    (hr : p.run exec g = .done a g') : g'.block = g.block := by
  refine Program.run_keeps (R := fun g g' => g'.block = g.block) (fun _ => rfl) ?_ ?_ h hr
  · intro s t u h h'
    exact h'.trans h
  · intro β o g b g' ho hr
    cases o with
    | inl o => exact block_edit ho.1 hr
    | inr o => exact block_sys ho hr

/-! ## The copy -/

/-- The copy is `str`, of the line that begins at `p`. -/
structure Copied (g : Globals) (p : ℤ) (str : List Char) : Prop where
  reg_lt : g.YDreg < Ureg
  cur_line : g.addr g.cur_line = g.at_ p
  kept : g.reg Ureg = some str

lemma Remembers.addr (h : Remembers g g') (q : Option Ptr) : g'.addr q = g.addr q := by
  cases q with
  | none => rfl
  | some q => exact congrArg (· q.block + q.off) h.base

lemma Remembers.at_ (h : Remembers g g') (hblock : g'.block = g.block) (p : ℤ) :
    g'.at_ p = g.at_ p := by
  rw [Buffer.at_, Buffer.at_, h.base, hblock]

/-- A command that does not move the text leaves the copy alone. -/
lemma Copied.remembers {p : ℤ} {str : List Char} (h : Copied g p str) (hrem : Remembers g g')
    (hblock : g'.block = g.block) : Copied g' p str := by
  obtain ⟨hcur, hreg⟩ := hrem.kept h.reg_lt hblock
  refine ⟨hrem.reg_lt h.reg_lt, ?_, hreg.trans h.kept⟩
  rw [hcur, hrem.addr, hrem.at_ hblock]
  exact h.cur_line

/-- The main loop sees that the cursor has come to another line. -/
def Noticed (g : Globals) : Prop := g.at_ (g.begin_line g.dot) ≠ g.addr g.cur_line

instance (g : Globals) : Decidable (Noticed g) := inferInstanceAs (Decidable (_ ≠ _))

/-- What `U` will put in place of the line `l` of the cursor is the line itself. -/
def Notes (g : Globals) (l : List Char) : Prop :=
  if Noticed g then NUL ∉ l else g.reg Ureg = some (l ++ ['\n'])

/-- The copy the main loop makes. -/
lemma save_line_done {u : Unit} (hr : save_line.run Edit.exec g = .done u g') :
    g' = { g with toView := g'.toView } ∧ g'.dot = g.dot ∧ g'.YDreg = g.YDreg ∧
      g.addr g'.cur_line = g.at_ (g.begin_line g.dot) ∧
      g'.reg Ureg = if Noticed g then
        some (cstring (g.range (g.begin_line g.dot) (g.end_line g.dot))) else g.reg Ureg := by
  have hle : g.begin_line g.dot ≤ g.end_line g.dot := Buffer.begin_line_le_end_line
  cases hr
  by_cases hnew : Noticed g
  · have haddr : g.addr (some ⟨g.block, g.begin_line g.dot⟩) ≠ g.addr g.cur_line := hnew
    rw [if_pos hnew]
    simp only [if_pos haddr]
    refine ⟨trivial, rfl, rfl, rfl, ?_⟩
    rw [Ed.text_yank]
    dsimp only
    rw [if_pos rfl, min_eq_left hle, max_eq_right hle]
  · have haddr : ¬ g.addr (some ⟨g.block, g.begin_line g.dot⟩) ≠ g.addr g.cur_line := hnew
    rw [if_neg hnew]
    simp only [if_neg haddr]
    exact ⟨trivial, trivial, trivial, (not_not.mp hnew).symm, trivial⟩

/-- What a turn has done when it comes to execute the command. -/
lemma before_cmd_done {c : Char} (hr : before_cmd.run exec g = .done c g') :
    g'.toBuffer = g.toBuffer ∧ g'.dot = g.dot ∧ g'.cmd_mode = g.cmd_mode ∧ g'.YDreg = g.YDreg ∧
      g'.addr g'.cur_line = g.at_ (g.begin_line g.dot) ∧
      g'.reg Ureg = if Noticed g then
        some (cstring (g.range (g.begin_line g.dot) (g.end_line g.dot))) else g.reg Ureg := by
  rw [before_cmd] at hr
  obtain ⟨_, g₁, hr₁, hr⟩ := (Program.run_bind_eq_done exec).mp hr
  obtain ⟨c, g₂, hr₂, hr⟩ := (Program.run_bind_eq_done exec).mp hr
  obtain ⟨_, g₃, hr₃, hr⟩ := (Program.run_bind_eq_done exec).mp hr
  obtain ⟨_, g₄, hr₄, hr⟩ := (Program.run_bind_eq_done exec).mp hr
  obtain ⟨_, g₅, hr₅, hr⟩ := (Program.run_bind_eq_done exec).mp hr
  -- up to the copy only the screen and the keys have changed
  have h₃ : g₃.toBuffer = g.toBuffer ∧ g₃.toView = g.toView ∧ g₃.cmd_mode = g.cmd_mode := by
    obtain ⟨hb, hv, -, -, -⟩ := g.refresh_view
    have hmode : g.refresh.cmd_mode = g.cmd_mode := by
      rw [Globals.refresh]
      split <;> rfl
    cases hr₁
    rw [run_edit, get_one_char, Program.run_perform] at hr₂
    obtain ⟨q, rfl⟩ := typed_done hr₂
    cases hr₃
    exact ⟨hb, hv, hmode⟩
  obtain ⟨hb, hv, hmode⟩ := h₃
  obtain ⟨h₄, hdot, hY, hcur, hreg⟩ := save_line_done ((run_edit _).symm.trans hr₄)
  have h₅ : g₅.toEd = g₄.toEd := by
    cases hr₅
    split <;> rfl
  have hdot₃ : g₃.dot = g.dot := congrArg View.dot hv
  have hnoticed : Noticed g₃ ↔ Noticed g := by
    rw [Noticed, Noticed, hb, hdot₃, congrArg View.cur_line hv]
  cases hr
  refine ⟨?_, ?_, ?_, ?_, ?_, ?_⟩
  · rw [h₅, h₄, hb]
  · rw [h₅, hdot, hdot₃]
  · rw [h₅, h₄, hmode]
  · rw [h₅, hY, congrArg View.YDreg hv]
  · have hb₄ : g₄.toBuffer = g₃.toBuffer := by rw [h₄]
    rw [h₅, hb₄, hcur, hb, hdot₃]
  · rw [h₅, hreg, hb, hdot₃, congrArg (fun v : View => v.reg Ureg) hv]
    exact if_congr hnoticed rfl rfl

/-- The line of the cursor, as it is copied. -/
lemma Globals.AtLine.range_line (h : g.AtLine pre l post) :
    g.range (g.begin_line g.dot) (g.end_line g.dot) = l ++ ['\n'] := by
  have hlined : g.Lined (pre ++ [l] ++ post) := by simpa using h.lined
  have hlen : (((unlines '\n' (pre ++ [l])).length : ℕ) : ℤ) - 1 =
      (unlines '\n' pre).length + l.length := by
    rw [unlines_append, unlines_cons, unlines_nil, List.length_append, List.length_append]
    push_cast
    simp
    ring
  have hrange := hlined.range_lines
  rw [hlen, unlines_cons, unlines_nil] at hrange
  rw [h.begin_line, h.end_line, hrange]

/-- After the first steps of a turn the line is copied, or has been. -/
lemma copied_before_cmd {c : Char} (h : g.AtLine pre l' post) (hY : g.YDreg < Ureg)
    (hl : Noticed g → l' = l) (hnotes : Notes g l) (hr : before_cmd.run exec g = .done c g') :
    Copied g' (unlines '\n' pre).length (l ++ ['\n']) := by
  obtain ⟨hb, -, -, hY', hcur, hreg⟩ := before_cmd_done hr
  refine ⟨by rw [hY']; exact hY, ?_, ?_⟩
  · rw [hcur, h.begin_line, hb]
  · rw [hreg, h.range_line]
    rw [Notes] at hnotes
    by_cases hnew : Noticed g
    · rw [if_pos hnew] at hnotes ⊢
      have hplain : NUL ∉ l' ++ ['\n'] := by
        rw [hl hnew, List.mem_append, not_or]
        exact ⟨hnotes, by decide⟩
      rw [cstring_eq_iff.mpr hplain, hl hnew]
    · rw [if_neg hnew] at hnotes ⊢
      exact hnotes

/-- Where a line has been copied, its changes are not noticed. -/
lemma Copied.notes (h : Copied g (unlines '\n' pre).length (l ++ ['\n']))
    (hat : g.AtLine pre l' post) :
    ¬ Noticed g ∧ Notes g l := by
  have hold : ¬ Noticed g := by
    rw [Noticed, hat.begin_line, not_not]
    exact h.cur_line.symm
  rw [Notes, if_neg hold]
  exact ⟨hold, h.kept⟩

/-- A turn that does not move the text leaves the copy of the line it began in. -/
lemma copied_turn {u : Unit} (h : g.AtLine pre l' post) (hY : g.YDreg < Ureg)
    (hl : Noticed g → l' = l) (hnotes : Notes g l) (hplace : turn.Along exec InPlace g)
    (hr : turn.run exec g = .done u g') : Copied g' (unlines '\n' pre).length (l ++ ['\n']) := by
  rw [turn_eq] at hr hplace
  obtain ⟨c, g₁, hr₁, hr₂⟩ := (Program.run_bind_eq_done _).mp hr
  have hcopied := copied_before_cmd h hY hl hnotes hr₁
  exact hcopied.remembers (remembering_do_cmd c g₁ g' u hr₂) (run_inPlace (hplace.rest hr₁) hr₂)

/-- Coming from one line to another is noticed just if they begin at different positions. -/
theorem noticed_after_turn {pre₁ post₁ : List (List Char)} {l₁ : List Char} {u : Unit}
    (h : g.AtLine pre₁ l₁ post₁) (hY : g.YDreg < Ureg) (hplace : turn.Along exec InPlace g)
    (hr : turn.run exec g = .done u g') (hat : g'.AtLine pre l post) :
    Noticed g' ↔ (unlines '\n' pre).length ≠ (unlines '\n' pre₁).length := by
  rw [turn_eq] at hr hplace
  obtain ⟨c, g₁, hr₁, hr₂⟩ := (Program.run_bind_eq_done _).mp hr
  obtain ⟨hb, -, -, hY₁, hcur, -⟩ := before_cmd_done hr₁
  have hrem := remembering_do_cmd c g₁ g' u hr₂
  have hblock := run_inPlace (hplace.rest hr₁) hr₂
  have hsame := (hrem.kept (by rw [hY₁]; exact hY) hblock).1
  rw [Noticed, hat.begin_line, hsame, hrem.addr, hcur, h.begin_line, hrem.at_ hblock, hb,
    Buffer.at_, Buffer.at_]
  omega

/-! ## Undoing -/

/-- Where the line goes that is put in place of another one: before the last newline that is left,
if it was the last of several. -/
lemma undo_position (h : g.Lined (pre ++ l' :: post)) :
    (g.toBuffer.text_hole_delete (unlines '\n' pre).length
      ((unlines '\n' pre).length + l'.length)).1 =
      if post = [] ∧ pre ≠ [] then ((unlines '\n' pre).length : ℤ) - 1
      else (unlines '\n' pre).length := by
  have hend := h.end_eq
  rw [unlines_append, unlines_cons, List.length_append, List.length_append,
    List.length_cons] at hend
  have hpre : pre ≠ [] → 0 < (unlines '\n' pre).length := by
    intro hne
    obtain ⟨m, ms, rfl⟩ := List.exists_cons_of_ne_nil hne
    rw [unlines_cons, List.length_append, List.length_cons]
    omega
  have hpost : post ≠ [] → 0 < (unlines '\n' post).length := by
    intro hne
    obtain ⟨m, ms, rfl⟩ := List.exists_cons_of_ne_nil hne
    rw [unlines_cons, List.length_append, List.length_cons]
    omega
  by_cases hnil : pre = [] ∧ post = []
  · obtain ⟨rfl, rfl⟩ := hnil
    rw [unlines_nil, List.length_nil] at hend ⊢
    rw [if_neg fun h => h.2 rfl]
    simp only [Buffer.text_hole_delete]
    split_ifs <;> dsimp only <;> omega
  · have hleft : 0 < (unlines '\n' pre).length + (unlines '\n' post).length := by
      rw [not_and_or] at hnil
      rcases hnil with hnil | hnil
      · have := hpre hnil
        omega
      · have := hpost hnil
        omega
    rw [Buffer.text_hole_delete_position (by omega) (by omega) (by omega) (by omega)]
    by_cases hp : post = []
    · subst hp
      rw [unlines_nil, List.length_nil] at hend hleft
      have hne : pre ≠ [] := fun h => hnil ⟨h, rfl⟩
      rw [if_pos (by omega), if_pos ⟨rfl, hne⟩]
      omega
    · have := hpost hp
      rw [if_neg (by omega), if_neg fun h => hp h.1]

/-- Putting a line in place of another one gives the text with that line, unless it is the last of
several and not empty. -/
lemma content_undone (h : g.Lined (pre ++ l' :: post)) (hlast : post = [] → pre = [] ∨ l = []) :
    ((g.deleted (unlines '\n' pre).length ((unlines '\n' pre).length + l'.length)).insert
      (g.toBuffer.text_hole_delete (unlines '\n' pre).length
        ((unlines '\n' pre).length + l'.length)).1 (l ++ ['\n'])).content =
      unlines '\n' (pre ++ l :: post) := by
  have hlen : (((unlines '\n' (pre ++ [l'])).length : ℕ) : ℤ) - 1 =
      (unlines '\n' pre).length + l'.length := by
    rw [unlines_append, unlines_cons, unlines_nil, List.length_append, List.length_append]
    push_cast
    simp
    ring
  have hrest : (g.deleted (unlines '\n' pre).length
      ((unlines '\n' pre).length + l'.length)).Lined (pre ++ post) := by
    rw [← hlen]
    exact lined_deleted_lines (by simpa using h) (List.cons_ne_nil _ _)
  have hend := hrest.end_eq
  rw [undo_position h]
  by_cases hwhere : post = [] ∧ pre ≠ []
  · -- an empty line, before the newline of the line above
    obtain ⟨rfl, hne⟩ := hwhere
    obtain rfl : l = [] := (hlast rfl).resolve_left hne
    obtain ⟨ms, m, rfl⟩ : ∃ ms m, pre = ms ++ [m] :=
      ⟨_, _, (List.dropLast_append_getLast hne).symm⟩
    have hlines : unlines '\n' (ms ++ [m]) = (unlines '\n' ms ++ m) ++ ['\n'] := by
      rw [unlines_append, unlines_cons, unlines_nil, List.append_assoc]
    have hat : (((unlines '\n' (ms ++ [m])).length : ℤ) - 1).toNat =
        (unlines '\n' ms ++ m).length := by
      rw [hlines, List.length_append, List.length_singleton]
      omega
    have hpos : 0 < (unlines '\n' (ms ++ [m])).length := by
      rw [hlines, List.length_append, List.length_singleton]
      omega
    rw [List.append_nil] at hrest hend
    rw [if_pos ⟨rfl, hne⟩, Globals.content_insert (by omega) (by omega), hrest.content, hat, hlines,
      List.take_left' rfl, List.drop_left' rfl, unlines_append _ [[]], unlines_append,
      unlines_cons, unlines_cons, unlines_nil]
    simp
  · rw [unlines_append, List.length_append] at hend
    have hat : (((unlines '\n' pre).length : ℕ) : ℤ).toNat = (unlines '\n' pre).length := by omega
    rw [if_neg hwhere, Globals.content_insert (by omega) (by omega), hrest.content, hat,
      unlines_append, List.take_left' rfl, List.drop_left' rfl, unlines_append, unlines_cons]
    simp

/-- `U` puts the copy in place of the line of the cursor. -/
lemma run_undo_line (h : g.AtLine pre l' post) (hlast : post = [] → pre = [] ∨ l = [])
    (hreg : g.reg Ureg = some (l ++ ['\n'])) (hplace : (edit undo_line).Along exec InPlace g) :
    ∃ g' : Globals, undo_line.run Edit.exec g = .done () g' ∧
      g'.content = unlines '\n' (pre ++ l :: post) := by
  let g₁ : Globals := g.deleted (g.begin_line g.dot) (g.end_line g.dot)
  let p : ℤ := (g.toBuffer.text_hole_delete (g.begin_line g.dot) (g.end_line g.dot)).1
  have hundo : undo_line = look.bind fun s => (s.reg Ureg).elim (pure ()) fun line =>
        (text_hole_delete (s.begin_line s.dot) (s.end_line s.dot)
          Buffer.begin_line_le_end_line).bind fun p =>
            (string_insert p line).bind fun p => (move fun _ => p).bind fun _ => skip_blanks := by
    rw [undo_line]
    refine congrArg (Program.bind look) (funext fun s => ?_)
    cases s.reg Ureg with
    | none => rfl
    | some line => rfl
  rw [along_edit_iff, hundo] at hplace
  have hfound := hplace.rest (t := g) (a := g.toEd) rfl
  rw [hreg] at hfound
  have hroom : Fitting g₁ (l ++ ['\n']).length := by
    have hput := (hfound.rest (t := g₁) (a := p) rfl).first
    rw [string_insert] at hput
    have hop := hput.first
    rw [Program.perform, Program.along_call] at hop
    exact hop.1.1
  obtain ⟨msg, hput⟩ := run_string_insert (p := p) hroom
  let g₂ : Globals := { g₁.insert p (l ++ ['\n']) with status_buffer := msg, dot := p }
  refine ⟨{ g₂ with dot := g₂.skip_over_ws g₂.dot }, ?_, ?_⟩
  · rw [hundo, run_look_bind, hreg, Option.elim_some, Program.run_bind]
    show (((string_insert p (l ++ ['\n'])).bind _).run Edit.exec g₁) = _
    rw [Program.run_bind, hput]
    rfl
  · show (g₁.insert p (l ++ ['\n'])).content = _
    have hundone := content_undone (l := l) h.lined hlast
    rw [← h.end_line, ← h.begin_line] at hundone
    exact hundone

lemma run_before_cmd_some {c : Char} {q : Queue} (hkey : g.queue.get_one_char = some (c, q)) :
    ∃ g' : Globals, before_cmd.run exec g = .done c g' := by
  have hqueue : g.refresh.queue = g.queue := by
    rw [Globals.refresh]
    split <;> rfl
  have hchar : get_one_char.run Edit.exec g.refresh =
      .done c { g.refresh.noticed g.queue.overrun with queue := q } := by
    rw [get_one_char, Program.run_perform, Edit.exec, hqueue, hkey]
    rfl
  have hdone : ∃ g', ((edit get_one_char).bind fun c => (edit (status_line "")).bind fun _ =>
      (edit save_line).bind fun _ => (sys (.remember c)).bind fun _ => pure c).run exec g.refresh =
        .done c g' := by
    rw [Program.run_bind, run_edit, hchar, Outcome.andThen_done]
    exact ⟨_, rfl⟩
  exact hdone

/-- A turn that does not move the text undoes the changes of the line whose copy is kept. -/
lemma run_turn_undo {q : Queue} (h : g.AtLine pre l' post) (hY : g.YDreg < Ureg)
    (hl : Noticed g → l' = l) (hnotes : Notes g l) (hlast : post = [] → pre = [] ∨ l = [])
    (hmode : g.cmd_mode = .command) (hkey : g.queue.get_one_char = some ('U', q))
    (hplace : turn.Along exec InPlace g) :
    ∃ g' : Globals, turn.run exec g = .done () g' ∧
      g'.content = unlines '\n' (pre ++ l :: post) := by
  obtain ⟨g₁, hbefore⟩ := run_before_cmd_some hkey
  have hcopied := copied_before_cmd h hY hl hnotes hbefore
  obtain ⟨hb, hdot, hmode₁, -⟩ := before_cmd_done hbefore
  have hcommand : g₁.cmd_mode = .command := hmode₁.trans hmode
  have hswitch : switch 'U' = (edit undo_line).bind fun _ => pure (some 'U') := rfl
  have hundo : (edit undo_line).Along exec InPlace g₁ := by
    rw [turn_eq] at hplace
    have hcmd := hplace.rest hbefore
    rw [do_cmd, Program.bind_eq, along_look (fun _ => ⟨trivial, id⟩),
      if_pos (.inr hcommand)] at hcmd
    have hfirst := hcmd.first
    rw [hswitch] at hfirst
    exact hfirst.first
  obtain ⟨g₂, hrun, hcontent⟩ := run_undo_line (h.same hb hdot) hlast hcopied.kept hundo
  -- there is a line, so that the end of the command changes nothing
  have hpos : 0 < g₂.end_ := by
    have hlen := congrArg List.length hcontent
    rw [Buffer.length_content, unlines_append, unlines_cons, List.length_append, List.length_append,
      List.length_cons] at hlen
    omega
  obtain ⟨g₃, hdc1, hsame⟩ := dc1_done hpos 'U'
  refine ⟨g₃, ?_, by rw [hsame]; exact hcontent⟩
  rw [run_turn_command hbefore hcommand, hswitch, Program.run_bind, run_edit, hrun,
    Outcome.andThen_done]
  exact hdc1

/-! ## Runs -/

/-- A turn of the main loop after which the cursor is in the line between `pre` and `post`. -/
def InLine (pre post : List (List Char)) (g : Globals) (e : Event) : Prop :=
  e = .key ∧ ∀ g', step g e = some g' → ∃ l, g'.AtLine pre l post

lemma step_key_eq_some (hs : step g .key = some g') :
    g.editing = true ∧ turn.run exec g = .done () g' := by
  rw [step] at hs
  split at hs
  · rename_i hedit
    obtain ⟨u, hr⟩ := Outcome.state_eq_some.mp hs
    exact ⟨hedit, hr⟩
  · cases hs

variable {mem : ℤ → Char} {base : ℕ → ℤ} {keys : List Char} {world : World} {readonly : Bool}
variable {optind argc : ℤ}

/-- The register that is named is never the one of the copy. -/
lemma reach_reg_lt (h : Reach step (fun _ _ => True)
    (vi_main mem base keys world readonly optind argc) g) : g.YDreg < Ureg := by
  refine h.induction_on (P := fun g => g.YDreg < Ureg) (by decide : 0 < Ureg) ?_
  intro g e g' hY _ hs
  rw [step] at hs
  split at hs
  · obtain ⟨u, hr⟩ := Outcome.state_eq_some.mp hs
    cases e with
    | file fn =>
      have hinit : Remembering (init_text_buffer fn none) :=
        fun _ _ _ hr => (block_init_text_buffer hr).2
      have hfile : Remembering (edit_file fn) :=
        Remembering.after fun _ => Remembering.after fun _ => hinit.bind fun _ => .sys _
      exact (hfile g g' u hr).reg_lt hY
    | command memory => exact (remembering_initial_cmd memory g g' u hr).reg_lt hY
    | key =>
      have hturn : (before_cmd.bind do_cmd).run exec g = .done u g' := hr
      obtain ⟨c, g₁, hr₁, hr₂⟩ := (Program.run_bind_eq_done _).mp hturn
      obtain ⟨-, -, -, hY₁, -⟩ := before_cmd_done hr₁
      refine (remembering_do_cmd c g₁ g' u hr₂).reg_lt ?_
      rw [hY₁]
      exact hY
  · cases hs

/-- The cursor has come to the line `l`, which is then kept for `U` if the main loop notices, and if
not is what has been kept.  After turns that change only this line and do not move the text, `U`
gives the text back, if the line is not the last of several or was empty. -/
theorem undo_line_restores {g₀ : Globals} {q : Queue}
    (hreach : Reach step (fun _ _ => True) (vi_main mem base keys world readonly optind argc) g₀)
    (hat : g₀.AtLine pre l post) (hnotes : Notes g₀ l) (hlast : post = [] → pre = [] ∨ l = [])
    (hrun : Reach step (fun g e => InLine pre post g e ∧ Meets InPlace g e) g₀ g)
    (hedit : g.editing = true) (hmode : g.cmd_mode = .command)
    (hkey : g.queue.get_one_char = some ('U', q)) (hplace : Meets InPlace g .key) :
    ∃ g', step g .key = some g' ∧ g'.content = g₀.content := by
  have hinv : ∃ l', g.AtLine pre l' post ∧ g.YDreg < Ureg ∧ (Noticed g → l' = l) ∧ Notes g l := by
    refine hrun.induction_on (P := fun g => ∃ l', g.AtLine pre l' post ∧ g.YDreg < Ureg ∧
      (Noticed g → l' = l) ∧ Notes g l) ⟨l, hat, reach_reg_lt hreach, fun _ => rfl, hnotes⟩ ?_
    rintro g e g' ⟨l', hat, hY, hl, hnotes⟩ ⟨⟨rfl, hline⟩, hplace⟩ hs
    obtain ⟨hedit, hr⟩ := step_key_eq_some hs
    obtain ⟨l'', hat'⟩ := hline g' hs
    have hcopied := copied_turn hat hY hl hnotes (hplace hedit) hr
    obtain ⟨hold, hnotes'⟩ := hcopied.notes hat'
    exact ⟨l'', hat', hcopied.reg_lt, fun hnew => absurd hnew hold, hnotes'⟩
  obtain ⟨l', hat', hY, hl, hnotes'⟩ := hinv
  obtain ⟨g', hr, hcontent⟩ := run_turn_undo hat' hY hl hnotes' hlast hmode hkey (hplace hedit)
  refine ⟨g', ?_, hcontent.trans hat.lined.content.symm⟩
  have hadmitted : Event.key.admitted g := hedit
  rw [step, if_pos hadmitted]
  exact Outcome.state_eq_some.mpr ⟨(), hr⟩

/-- An editor for a file with the given text, and the keys to come. -/
def with_text (text keys : List Char) : Globals :=
  vi_main (fun _ => NUL) (fun n => 100000 * n) keys
    { busy := []
      sizes := []
      erase := []
      file_sizes := [some text.length]
      files := [⟨some text.length, true, true, some text, false, ""⟩]
      sinks := []
      behind := []
      fuel := 10 }
    false 0 1

/-- The second of three lines is reached, loses its character, and gets it back. -/
theorem undo_line_restores_second : ∃ g₀ g g' : Globals,
    g₀.content = ['a', '\n', 'b', '\n', 'c', '\n'] ∧ step g₀ .key = some g ∧
      g.content = ['a', '\n', '\n', 'c', '\n'] ∧ step g .key = some g' ∧
      g'.content = g₀.content := by
  let start : Globals := with_text ['a', '\n', 'b', '\n', 'c', '\n'] ['j', 'x', 'U']
  have hfirst : ((replay step start [.file (some ['f']), .key]).map fun g₀ =>
      (g₀.content, g₀.dot, g₀.end_, decide (Noticed g₀), decide (Meets InPlace g₀ .key))) =
      some (['a', '\n', 'b', '\n', 'c', '\n'], 2, 6, true, true) := by decide +kernel
  have hsecond : ((replay step start [.file (some ['f']), .key, .key]).map fun g =>
      (g.content, decide (g.dot = 2 ∧ g.end_ = 5 ∧ g.editing = true ∧ g.cmd_mode = .command),
        decide (g.queue.get_one_char.map Prod.fst = some 'U'), decide (Meets InPlace g .key))) =
      some (['a', '\n', '\n', 'c', '\n'], true, true, true) := by decide +kernel
  obtain ⟨g₀, hs₀, h₀⟩ := Option.map_eq_some_iff.mp hfirst
  obtain ⟨g, hs, h⟩ := Option.map_eq_some_iff.mp hsecond
  simp only [Prod.mk.injEq, decide_eq_true_eq] at h₀ h
  obtain ⟨hcontent₀, hdot₀, hend₀, hnoticed, hplace₀⟩ := h₀
  obtain ⟨hcontent, ⟨hdot, hend, hedit, hmode⟩, hkey, hplace⟩ := h
  obtain ⟨⟨c, q⟩, hq, rfl⟩ := Option.map_eq_some_iff.mp hkey
  have hstep : step g₀ .key = some g := by
    rw [← replay_concat hs₀]
    exact hs
  have hat₀ : g₀.AtLine [['a']] ['b'] [['c']] :=
    ⟨⟨by omega, hcontent₀, by decide⟩, by rw [hdot₀]; decide, by rw [hdot₀]; decide⟩
  have hat : g.AtLine [['a']] [] [['c']] :=
    ⟨⟨by omega, hcontent, by decide⟩, by rw [hdot]; decide, by rw [hdot]; decide⟩
  have hline : InLine [['a']] [['c']] g₀ .key := by
    refine ⟨rfl, fun g' hs' => ⟨[], ?_⟩⟩
    rw [hstep] at hs'
    cases hs'
    exact hat
  have hnotes : Notes g₀ ['b'] := by
    rw [Notes, if_pos hnoticed]
    decide
  obtain ⟨g', hs', hsame⟩ := undo_line_restores (Reach.of_replay .init hs₀) hat₀ hnotes nofun
    (Reach.init.step ⟨hline, hplace₀⟩ hstep) hedit hmode hq hplace
  exact ⟨g₀, g, g', hcontent₀, hstep, hcontent, hs', hsame⟩

/-- After `dd` the next line begins where the deleted one did.  `U` puts the deleted one in its
place, when all that has happened to it is that it lost a character. -/
theorem undo_line_puts_deleted : ∃ g g₀ g₁ g' : Globals,
    Reach step (fun _ _ => True) (with_text ['a', '\n', 'b', '\n'] ['d', 'd', 'x', 'U']) g ∧
      g.content = ['a', '\n', 'b', '\n'] ∧ step g .key = some g₀ ∧ g₀.content = ['b', '\n'] ∧
      step g₀ .key = some g₁ ∧ g₁.content = ['\n'] ∧ step g₁ .key = some g' ∧
      g'.content = ['a', '\n'] := by
  let start : Globals := with_text ['a', '\n', 'b', '\n'] ['d', 'd', 'x', 'U']
  have hrun : ((replay step start [.file (some ['f'])]).bind fun g => (step g .key).bind fun g₀ =>
      (step g₀ .key).bind fun g₁ => (step g₁ .key).map fun g' =>
        (g.content, g₀.content, g₁.content, g'.content)) =
      some (['a', '\n', 'b', '\n'], ['b', '\n'], ['\n'], ['a', '\n']) := by decide +kernel
  obtain ⟨g, hs, hrun⟩ := Option.bind_eq_some_iff.mp hrun
  obtain ⟨g₀, hs₀, hrun⟩ := Option.bind_eq_some_iff.mp hrun
  obtain ⟨g₁, hs₁, hrun⟩ := Option.bind_eq_some_iff.mp hrun
  obtain ⟨g', hs', hrun⟩ := Option.map_eq_some_iff.mp hrun
  simp only [Prod.mk.injEq] at hrun
  obtain ⟨h, h₀, h₁, h'⟩ := hrun
  exact ⟨g, g₀, g₁, g', Reach.of_replay .init hs, h, hs₀, h₀, hs₁, h₁, hs', h'⟩

end EspLinux.Vi
