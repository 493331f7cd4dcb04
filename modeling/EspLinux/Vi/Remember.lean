import EspLinux.Vi.Quiet
import EspLinux.Vi.Room

/-!
# vi: the line that is kept for `U`

The main loop keeps the line of the cursor in a register of its own.  No command writes to this
register, nor to the pointer that says which line it is, as long as the text stays where it is:
commands write to the register that is named, which is never this one.  Only `:edit` empties it, and
that gives the text a new allocation.
-/

namespace EspLinux.Vi

open Lib

variable {α β : Type} {g g' g'' : Globals}

/-- What is kept for `U` is the same afterwards, unless the text has been moved. -/
structure Remembers (g g' : Globals) : Prop where
  base : g'.base = g.base
  block_le : g.block ≤ g'.block
  reg_lt : g.YDreg < Ureg → g'.YDreg < Ureg
  kept : g.YDreg < Ureg → g'.block = g.block →
    g'.cur_line = g.cur_line ∧ g'.reg Ureg = g.reg Ureg

namespace Remembers

lemma refl (g : Globals) : Remembers g g := ⟨rfl, le_refl _, id, fun _ _ => ⟨rfl, rfl⟩⟩

lemma trans (h : Remembers g g') (h' : Remembers g' g'') : Remembers g g'' := by
  refine ⟨h'.base.trans h.base, h.block_le.trans h'.block_le, h'.reg_lt ∘ h.reg_lt, ?_⟩
  intro hreg hblock
  have hle := h.block_le
  have hle' := h'.block_le
  obtain ⟨hcur, hU⟩ := h.kept hreg (by omega)
  obtain ⟨hcur', hU'⟩ := h'.kept (h.reg_lt hreg) (by omega)
  exact ⟨hcur'.trans hcur, hU'.trans hU⟩

/-- A step that changes neither the registers nor which allocation is used. -/
lemma of_view (hbase : g'.base = g.base) (hblock : g.block ≤ g'.block) (hY : g'.YDreg = g.YDreg)
    (hcur : g'.cur_line = g.cur_line) (hU : g'.reg = g.reg) : Remembers g g' :=
  ⟨hbase, hblock, fun h => hY ▸ h, fun _ _ => ⟨hcur, congrFun hU Ureg⟩⟩

end Remembers

/-! ## Operations -/

lemma remembers_hole (g : Globals) (p size : ℤ) : Remembers g (g.text_hole_make p size) := by
  rw [Globals.text_hole_make]
  split
  · refine .of_view ?_ ?_ rfl rfl rfl
    · show (g.hole p size).base = g.base
      rw [Buffer.hole]
      split <;> rfl
    · show g.block ≤ (g.hole p size).block + 1
      rw [Globals.block_hole]
      exact Nat.le_succ _
  · refine .of_view ?_ ?_ rfl rfl rfl
    · show (g.hole p size).base = g.base
      rw [Buffer.hole]
      split <;> rfl
    · exact Globals.block_hole.ge

lemma remembers_insert (g : Globals) (p : ℤ) (s : List Char) : Remembers g (g.insert p s) := by
  have h := remembers_hole g p s.length
  exact ⟨h.base, h.block_le, h.reg_lt, h.kept⟩

lemma remembers_deleted (g : Globals) (p q : ℤ) : Remembers g (g.deleted p q) := by
  have h : (g.toBuffer.text_hole_delete p q).2.base = g.base ∧
      (g.toBuffer.text_hole_delete p q).2.block = g.block := by
    simp only [Buffer.text_hole_delete]
    split_ifs <;> exact ⟨rfl, rfl⟩
  exact .of_view h.1 h.2.ge rfl rfl rfl

lemma remembers_refresh (g : Globals) : Remembers g g.refresh := by
  rw [Globals.refresh]
  split <;> exact .of_view rfl (le_refl _) rfl rfl rfl

lemma remembers_edit {o : Edit β} {b : β} (ho : TameEdit β o) (hr : Edit.exec β o g = .done b g') :
    Remembers g g' := by
  cases o with
  | look | fuel =>
    cases hr
    exact .refl g
  | view f =>
    cases hr
    refine ⟨rfl, le_refl _, fun h => (ho g.toEd h).2.2, fun h _ => ?_⟩
    exact ⟨(ho g.toEd h).1, (ho g.toEd h).2.1⟩
  | status_line | scroll | set_mark | check_context | poke =>
    cases hr
    exact .of_view rfl (le_refl _) rfl rfl rfl
  | end_cmd_q =>
    cases hr
    exact ⟨rfl, le_refl _, fun _ => (by decide : 26 < Ureg), fun _ _ => ⟨rfl, rfl⟩⟩
  | indicate_error =>
    cases hr
    split
    · exact (remembers_refresh g).trans (remembers_refresh _)
    · exact .refl g
  | get_one_char | get_input_line =>
    simp only [Edit.exec, Edit.typed] at hr
    split at hr <;> cases hr
    exact .of_view rfl (le_refl _) rfl rfl rfl
  | stupid_insert p c held =>
    simp only [Edit.exec] at hr
    split at hr <;> cases hr
    exact remembers_insert g p [c]
  | string_insert p s =>
    simp only [Edit.exec] at hr
    split at hr <;> cases hr
    exact remembers_insert g p s
  | text_hole_delete p q =>
    cases hr
    exact remembers_deleted g p q
  | goto_mark | swap_context =>
    simp only [Edit.exec] at hr
    split at hr
    · split at hr <;> cases hr
      exact .of_view rfl (le_refl _) rfl rfl rfl
    · cases hr
      exact .refl g
  | stop => cases hr

lemma remembers_say (g : Globals) (msg : String) : Remembers g (g.say msg) :=
  .of_view rfl (le_refl _) rfl rfl rfl

lemma remembers_read_in (g : Globals) (fn : List Char) (p : ℤ) (size : ℕ) (found : Found) :
    Remembers g (g.read_in fn p size found).2 := by
  have hhole := remembers_hole g p size
  rw [Globals.read_in]
  cases found.data with
  | none => exact hhole.trans ((remembers_deleted _ _ _).trans (remembers_say _ _))
  | some data =>
    have hstore : Remembers g { g.text_hole_make p size with
        mem := Buffer.store (g.text_hole_make p size).mem p (data.take size) } :=
      ⟨hhole.base, hhole.block_le, hhole.reg_lt, hhole.kept⟩
    dsimp only
    split
    · exact hstore.trans ((remembers_deleted _ _ _).trans (remembers_say _ _))
    · exact hstore.trans (.of_view rfl (le_refl _) rfl rfl rfl)

/-- Reading a file may move the text, but leaves the registers alone. -/
lemma remembers_file_insert (g : Globals) (fn : List Char) (p : ℤ) (ro : Bool) :
    Remembers g (g.file_insert fn p ro).2 := by
  have hfound : ∀ g found, Remembers g (g.insert_found fn p found).2 := by
    intro g found
    rw [Globals.insert_found]
    split
    · exact remembers_say _ _
    · split_ifs
      all_goals first
        | exact remembers_say _ _
        | exact remembers_read_in g fn p _ found
  have h := hfound { g with world := { g.world with files := g.world.files.tail } }
    (g.world.files.headD ⟨none, false, false, none, false, ""⟩)
  rw [Globals.file_insert]
  dsimp only
  split
  · exact ⟨h.base, h.block_le, h.reg_lt, h.kept⟩
  · exact ⟨h.base, h.block_le, h.reg_lt, h.kept⟩

lemma remembers_file_write (g : Globals) (fn : Option (List Char)) (first last : ℤ) :
    Remembers g (g.file_write fn first last).2 := by
  simp only [Globals.file_write]
  split_ifs <;> exact .of_view rfl (le_refl _) rfl rfl rfl

lemma remembers_sys {o : Sys β} {b : β} (hr : Sys.exec β o g = .done b g') : Remembers g g' := by
  cases o with
  | refresh =>
    cases hr
    exact remembers_refresh g
  | set_mode | top | createScreen | rawmode | strerror | loaded | touch | leave =>
    cases hr
    exact .of_view rfl (le_refl _) rfl rfl rfl
  | fresh_buffer =>
    cases hr
    exact .of_view rfl (Nat.le_succ _) rfl rfl rfl
  | start =>
    cases hr
    exact ⟨rfl, le_refl _, fun _ => (by decide : 26 < Ureg), fun _ _ => ⟨rfl, rfl⟩⟩
  | hit_return =>
    obtain ⟨overrun, q, rfl⟩ := hit_return_done hr
    exact .of_view rfl (le_refl _) rfl rfl rfl
  | remember | repeat_cmd =>
    cases hr
    split <;> exact .of_view rfl (le_refl _) rfl rfl rfl
  | check | count_lines | next_line =>
    simp only [Sys.exec] at hr
    split_ifs at hr <;> cases hr
    all_goals exact .refl g
  | mark_line =>
    simp only [Sys.exec] at hr
    split at hr
    · cases hr
      exact .refl g
    · split at hr <;> cases hr
      exact .refl g
  | file_size fn =>
    simp only [Sys.exec] at hr
    split at hr <;> cases hr
    all_goals exact .of_view rfl (le_refl _) rfl rfl rfl
  | file_insert fn p ro =>
    cases hr
    exact remembers_file_insert g fn p ro
  | file_write colon leaving fn first last =>
    have h := remembers_file_write g fn first last
    cases hr
    split
    · exact ⟨h.base, h.block_le, h.reg_lt, h.kept⟩
    · exact h

/-! ## Editing commands -/

/-- No operation of the command writes to what is kept for `U`. -/
abbrev Tame (p : Cmd α) : Prop := p.All TameEdit

lemma tame_pure (a : α) : Tame (pure a : Cmd α) := trivial

lemma tame_view {f : Ed → View} (h : TameView f) : Tame (view f) := ⟨h, fun _ => trivial⟩

/-- Setting anything but registers. -/
lemma tame_set {f : Ed → View} (h : ∀ s, (f s).cur_line = s.cur_line ∧ (f s).reg = s.reg ∧
    (f s).YDreg = s.YDreg) : Tame (view f) :=
  tame_view fun s hs => ⟨(h s).1, congrFun (h s).2.1 Ureg, (h s).2.2 ▸ hs⟩

lemma tame_move (f : Ed → ℤ) : Tame (move f) := tame_set fun _ => ⟨rfl, rfl, rfl⟩

lemma tame_count (f : Ed → ℤ) : Tame (count f) := tame_set fun _ => ⟨rfl, rfl, rfl⟩

lemma tame_look : Tame look := ⟨trivial, fun _ => trivial⟩

lemma tame_status_line (msg : String) : Tame (status_line msg) := ⟨trivial, fun _ => trivial⟩

lemma tame_indicate_error : Tame indicate_error := ⟨trivial, fun _ => trivial⟩

lemma tame_get_one_char : Tame get_one_char := ⟨trivial, fun _ => trivial⟩

lemma tame_end_cmd_q : Tame end_cmd_q := ⟨trivial, fun _ => trivial⟩

lemma tame_stupid_insert (p : ℤ) (c : Char) (held : Bool) : Tame (stupid_insert p c held) :=
  ⟨trivial, fun _ => trivial⟩

lemma tame_text_hole_delete (p q : ℤ) (h : p ≤ q) : Tame (text_hole_delete p q h) :=
  ⟨trivial, fun _ => trivial⟩

lemma tame_poke (p : ℤ) (c : Char) : Tame (poke p c) := ⟨trivial, fun _ => trivial⟩

/-- Copying into the register that is named. -/
lemma tame_text_yank (p q : Ed → ℤ) : Tame (view fun s => s.text_yank (p s) (q s) s.YDreg) :=
  tame_view fun _ hs => ⟨rfl, if_neg hs.ne', hs⟩

lemma tame_yank_delete (start stop : ℤ) (lines del : Bool) :
    Tame (yank_delete start stop lines del) := by
  rw [yank_delete]
  refine tame_look.bind fun _ => ?_
  dsimp only
  split_ifs
  · exact (tame_text_yank _ _).bind fun _ => tame_text_hole_delete _ _ _
  · exact (tame_text_yank _ _).bind fun _ => tame_pure _
  · exact tame_pure _
  · exact (tame_text_yank _ _).bind fun _ => tame_text_hole_delete _ _ _
  · exact (tame_text_yank _ _).bind fun _ => tame_pure _

lemma tame_string_insert (p : ℤ) (str : List Char) : Tame (string_insert p str) := by
  have hop : Tame (Program.perform (.string_insert p str)) := ⟨trivial, fun _ => trivial⟩
  rw [string_insert]
  exact hop.bind fun p => tame_look.bind fun s => (tame_status_line _).bind fun _ => tame_pure _

lemma tame_indent (n : ℕ) (q p : ℤ) : Tame (indent n q p) := by
  induction n generalizing q p with
  | zero => trivial
  | succ n ih =>
    rw [indent]
    refine tame_look.bind fun s => ?_
    split
    · exact (tame_stupid_insert _ _ _).bind fun p => ih _ p
    · exact tame_pure _

lemma tame_plain_insert (p : ℤ) (c : Char) : Tame (plain_insert p c) := by
  rw [plain_insert]
  refine tame_look.bind fun s => ?_
  dsimp only
  split
  · split
    · exact tame_text_hole_delete _ _ _
    · exact tame_pure _
  · generalize (if c = '\r' then '\n' else c) = c
    refine (tame_stupid_insert _ _ _).bind fun p => tame_look.bind fun s => ?_
    split
    · exact tame_indent _ _ p
    · exact tame_pure _

/-- The commands that move the cursor are tame. -/
lemma Quiet.tame {D : Prop} {p : Cmd α} (h : Quiet D p) (hdc1 : D → ∀ c, Tame (Vi.dc1 c)) :
    Tame p := by
  induction h with
  | pure a => exact tame_pure a
  | @op _ o h =>
    refine ⟨?_, fun _ => trivial⟩
    cases o with
    | view => exact h
    | _ => trivial
  | bind _ _ ih ihf => exact ih.bind ihf
  | dc1 h c => exact hdc1 h c

lemma tame_dc1 (c : Char) : Tame (dc1 c) := by
  have hsettle : Tame (settle c) := (quiet_settle c).tame False.elim
  rw [dc1]
  refine tame_look.bind fun s => ?_
  dsimp only
  split
  · exact (tame_plain_insert _ _).bind fun _ => (tame_move _).bind fun _ => hsettle
  · exact hsettle

lemma tame_move_exec (m : Move) (c : Char) : Tame (m.exec c) :=
  (quiet_move_exec m c).tame fun _ => tame_dc1

lemma tame_again {body : Cmd Bool} (h : Tame body) : Tame (again body) := by
  have hloop : ∀ n, Tame (repeated body n) := by
    intro n
    induction n with
    | zero => exact tame_pure ()
    | succ n ih =>
      rw [repeated]
      refine h.bind fun on => ?_
      split
      · refine tame_look.bind fun s => (tame_count _).bind fun _ => ?_
        split
        · exact ih
        · exact tame_pure _
      · exact tame_pure _
  rw [again]
  exact tame_look.bind fun s => hloop _

lemma tame_each {body : Cmd Unit} (h : Tame body) : Tame (each body) :=
  tame_again (h.bind fun _ => tame_pure true)

lemma tame_find_range (c : Char) : Tame (find_range c) :=
  (quiet_find_range c).tame fun _ => tame_dc1

/-! ### Commands that change the text -/

lemma tame_put (c : Char) : Tame (put c) := by
  have hlast : ∀ p, Tame (do
      let s ← look
      let dot ← string_insert s.dot p
      move fun _ => dot
      end_cmd_q : Cmd Unit) := fun p => tame_look.bind fun s =>
    (tame_string_insert _ _).bind fun dot => (tame_move _).bind fun _ => tame_end_cmd_q
  rw [put]
  refine tame_look.bind fun s => ?_
  split
  · exact tame_status_line _
  · split_ifs
    · exact (tame_move _).bind fun _ => hlast _
    · exact (tame_move _).bind fun _ => hlast _
    · exact (tame_move _).bind fun _ => hlast _
    · exact (tame_move _).bind fun _ => hlast _
    · exact hlast _

lemma tame_undo_line : Tame undo_line := by
  rw [undo_line]
  refine tame_look.bind fun s => ?_
  split
  · exact tame_pure _
  · refine (tame_text_hole_delete _ _ _).bind fun p => (tame_string_insert _ _).bind fun p => ?_
    exact (tame_move _).bind fun _ => tame_move _

lemma tame_delete_char (c : Char) : Tame (delete_char c) := by
  rw [delete_char]
  refine tame_look.bind fun s => ?_
  dsimp only
  generalize (if c = 'X' then s.dot - 1 else s.dot) = p
  split
  · refine (tame_move _).bind fun _ => (tame_yank_delete _ _ _ _).bind fun dot => tame_move _
  · exact tame_pure _

lemma tame_replace_char : Tame replace_char := by
  rw [replace_char]
  refine tame_get_one_char.bind fun c1 => tame_look.bind fun s => ?_
  dsimp only
  split
  · exact (tame_poke _ _).bind fun _ => tame_end_cmd_q
  · exact tame_end_cmd_q

lemma tame_flip_case : Tame flip_case := by
  have hlast : Tame (do
      move Ed.dot_right
      end_cmd_q : Cmd Unit) := (tame_move _).bind fun _ => tame_end_cmd_q
  rw [flip_case]
  refine tame_look.bind fun s => ?_
  split_ifs
  · exact (tame_poke _ _).bind fun _ => hlast
  · exact (tame_poke _ _).bind fun _ => hlast
  · exact hlast

lemma tame_delete_rest : Tame delete_rest := by
  rw [delete_rest]
  exact tame_look.bind fun s => (tame_yank_delete _ _ _ _).bind fun dot => tame_move _

lemma tame_delete_blanks (n : ℕ) : Tame (delete_blanks n) := by
  induction n with
  | zero => exact ⟨trivial, fun _ => trivial⟩
  | succ n ih =>
    rw [delete_blanks]
    refine tame_look.bind fun s => ?_
    split
    · exact (tame_text_hole_delete _ _ _).bind fun _ => ih
    · exact tame_pure _

lemma tame_join (n : ℕ) : Tame (join n) := by
  have hlines : Tame join_lines := by
    rw [join_lines]
    refine (tame_move _).bind fun _ => tame_look.bind fun s => ?_
    dsimp only
    split
    · refine (tame_poke _ _).bind fun _ => (tame_move _).bind fun _ => tame_look.bind fun s => ?_
      exact (tame_delete_blanks _).bind fun _ => tame_end_cmd_q
    · exact tame_end_cmd_q
  induction n with
  | zero => exact tame_pure _
  | succ n ih =>
    rw [join]
    refine hlines.bind fun _ => tame_look.bind fun s => (tame_count _).bind fun _ => ?_
    split
    · exact ih
    · exact tame_pure _

lemma tame_open_below : Tame open_below := by
  rw [open_below]
  refine (tame_move _).bind fun _ => tame_look.bind fun s => ?_
  exact (tame_plain_insert _ _).bind fun dot => tame_move _

lemma tame_open_above : Tame open_above := by
  rw [open_above]
  refine tame_look.bind fun s => ?_
  split
  · exact (tame_move _).bind fun _ => tame_open_below
  · refine (tame_move _).bind fun _ => tame_look.bind fun s => ?_
    refine (tame_plain_insert _ _).bind fun dot => ?_
    exact (tame_move _).bind fun _ => tame_move _

lemma tame_after_lines (c : Char) : Tame (after_lines c) := by
  rw [after_lines]
  split_ifs
  · refine tame_look.bind fun s => (tame_plain_insert _ _).bind fun dot => ?_
    refine (tame_move _).bind fun _ => tame_look.bind fun s => ?_
    split
    · exact tame_move _
    · exact tame_pure _
  · exact tame_move _
  · exact tame_pure _

lemma tame_report (c : Char) : Tame (report c) := by
  rw [report]
  refine tame_look.bind fun s => ?_
  dsimp only
  split
  · exact ⟨trivial, fun _ => trivial⟩
  · exact (tame_status_line _).bind fun _ => tame_end_cmd_q

lemma tame_operator (c : Char) : Tame (operator c) := by
  have hlast : Tame (do
      if c = 'c' then return (c, true)
      else
        report c
        return (c, false) : Cmd (Char × Bool)) := by
    split
    · exact tame_pure _
    · exact (tame_report c).bind fun _ => tame_pure _
  have hrange : ∀ c1, Tame (do
      let r ← find_range c1
      let del := c = 'c' || c = 'd'
      if c1 = '\x1b' then return ('\x1b', false)
      else
        let s ← look
        if strchr "wW" c1 ∨ strchr partial_line c1 ∨ strchr whole_lines c1 then
          let q := if strchr "wW" c1 ∧ c = 'c' then s.back_blanks r.2.1.toNat r.2.1 else r.2.1
          let dot ← yank_delete r.1 q r.2.2 del
          move fun _ => dot
          if r.2.2 ∧ ¬ strchr "wW" c1 ∧ ¬ strchr partial_line c1 then after_lines c
          if c = 'c' then return (c, true)
          else
            report c
            return (c, false)
        else
          indicate_error
          return ('\x1b', false) : Cmd (Char × Bool)) := by
    intro c1
    refine (tame_find_range c1).bind fun r => ?_
    dsimp only
    split
    · exact tame_pure _
    · refine tame_look.bind fun s => ?_
      split
      · refine (tame_yank_delete _ _ _ _).bind fun dot => (tame_move _).bind fun _ => ?_
        split
        · exact (tame_after_lines c).bind fun _ => hlast
        · exact hlast
      · exact tame_indicate_error.bind fun _ => tame_pure _
  rw [operator]
  split
  · exact hrange 'y'
  · exact tame_get_one_char.bind hrange

lemma tame_shift_left (p : ℤ) : Tame (shift_left p) := by
  have hspaces : ∀ n, Tame (shift_left.spaces p n) := by
    intro n
    induction n with
    | zero => exact tame_pure _
    | succ n ih =>
      rw [shift_left.spaces]
      refine tame_look.bind fun s => ?_
      split
      · exact (tame_text_hole_delete _ _ _).bind fun _ => ih
      · exact tame_pure _
  rw [shift_left]
  refine tame_look.bind fun s => ?_
  split_ifs
  · exact (tame_text_hole_delete _ _ _).bind fun _ => tame_pure _
  · exact hspaces _
  · exact tame_pure _

/-! ### Colon commands -/

lemma tame_not_implemented (s : List Char) : Tame (not_implemented s) := tame_status_line _

lemma tame_substitute_line (find by_ : List Char) (gflag : Bool) (hfind : find ≠ []) (ls : ℤ)
    (n : ℕ) (q : ℤ) : Tame (substitute_line find by_ gflag hfind ls n q) := by
  induction n generalizing q with
  | zero => exact ⟨trivial, fun _ => trivial⟩
  | succ n ih =>
    rw [substitute_line]
    refine tame_look.bind fun s => ?_
    split
    · exact tame_pure _
    · refine (tame_text_hole_delete _ _ _).bind fun _ => (tame_string_insert _ _).bind fun _ => ?_
      refine tame_look.bind fun s => ?_
      split
      · exact ih _
      · exact tame_pure _

lemma tame_substitute_lines (find by_ : List Char) (gflag : Bool) (hfind : find ≠ []) (fuel k : ℕ)
    (q : ℤ) : Tame (substitute_lines find by_ gflag hfind fuel k q) := by
  induction k generalizing q with
  | zero => exact tame_pure _
  | succ k ih =>
    rw [substitute_lines]
    exact (tame_substitute_line _ _ _ _ _ _ _).bind fun _ => tame_look.bind fun s => ih _

lemma tame_colon_set (l : Line) : Tame (colon_set l) := by
  have hoption : ∀ a, Tame (set_option_ a) := by
    intro a
    rw [set_option_]
    generalize (if strncasecmp a ['n', 'o'] 2 then a.drop 2 else a) = w
    refine Program.All.bind (tame_set fun _ => ⟨rfl, rfl, rfl⟩) fun _ => ?_
    split
    · split
      · dsimp only
        generalize (w.dropWhile (· ≠ '=')).tail.dropWhile isspace = value
        generalize (if value.headD NUL = '+' then value.tail else value) = value
        split
        · exact tame_set fun _ => ⟨rfl, rfl, rfl⟩
        · exact tame_pure _
      · exact ⟨trivial, fun _ => trivial⟩
    · exact tame_pure _
  have hoptions : ∀ n a, Tame (set_options n a) := by
    intro n
    induction n with
    | zero => exact fun _ => tame_pure _
    | succ n ih =>
      intro a
      rw [set_options]
      split
      · exact tame_pure _
      · exact (hoption a).bind fun _ => ih _
  rw [colon_set]
  exact (hoptions _ _).bind fun _ => tame_look.bind fun s => tame_status_line _

/-! ## Procedures -/

/-- What is kept for `U` is the same after every run, unless the text has been moved. -/
def Remembering (p : Proc α) : Prop :=
  ∀ (g g' : Globals) (a : α), p.run exec g = .done a g' → Remembers g g'

namespace Remembering

lemma pure (a : α) : Remembering (pure a : Proc α) := by
  intro g g' b hr
  cases hr
  exact .refl g

lemma bind {p : Proc α} {f : α → Proc β} (hp : Remembering p) (hf : ∀ a, Remembering (f a)) :
    Remembering (p.bind f) := by
  intro g g' b hr
  obtain ⟨a, g₁, hr₁, hr₂⟩ := (Program.run_bind_eq_done _).mp hr
  exact (hp g g₁ a hr₁).trans (hf a g₁ g' b hr₂)

lemma sys (o : Sys α) : Remembering (sys o) := by
  intro g g' a hr
  rw [run_sys] at hr
  exact remembers_sys hr

lemma edit {p : Cmd α} (h : Tame p) : Remembering (edit p) := by
  intro g g' a hr
  rw [run_edit] at hr
  have halong : p.Along Edit.exec (fun β o _ => TameEdit β o) g := h.along (fun _ _ _ ho => ho) g
  exact Program.run_keeps Remembers.refl (fun _ _ _ => Remembers.trans)
    (fun _ _ _ _ _ ho => remembers_edit ho) halong hr

/-- After an editing command. -/
lemma next {p : Cmd α} {f : α → Proc β} (h : Tame p) (hf : ∀ a, Remembering (f a)) :
    Remembering (Vi.edit p >>= f) := (edit h).bind hf

/-- After one of the other operations. -/
lemma after {o : Sys α} {f : α → Proc β} (hf : ∀ a, Remembering (f a)) :
    Remembering (Vi.sys o >>= f) := (sys o).bind hf

/-- After a look at the editor. -/
lemma look {f : Ed → Proc β} (hf : ∀ s, Remembering (f s)) : Remembering (Vi.edit Vi.look >>= f) :=
  next tame_look hf

end Remembering

open Remembering (next after)

/-! ### Changes -/

lemma remembering_shift_lines (c : Char) (n : ℕ) (p : Ptr) : Remembering (shift_lines c n p) := by
  induction n generalizing p with
  | zero => exact .pure _
  | succ n ih =>
    rw [shift_lines]
    refine after fun _ => ?_
    dsimp only
    split
    · exact next (tame_shift_left _) fun _ => after fun p' => ih p'
    · exact next (tame_plain_insert _ _) fun _ => after fun p' => ih p'

lemma remembering_shift (c : Char) : Remembering (shift c) := by
  rw [shift]
  refine .look fun s => next tame_get_one_char fun c1 => next (tame_find_range c1) fun r => ?_
  refine next (tame_yank_delete _ _ _ _) fun _ => .look fun t => ?_
  refine (remembering_shift_lines c _ _).bind fun _ => next (tame_move _) fun _ => ?_
  exact .edit tame_end_cmd_q

lemma remembering_showmatching (p : ℤ) : Remembering (showmatching p) := by
  rw [showmatching]
  refine .look fun s => ?_
  split
  · exact .edit tame_indicate_error
  · exact next (tame_move _) fun _ => after fun _ => next (tame_move _) fun _ => .sys _

lemma remembering_char_insert (p : ℤ) (c : Char) : Remembering (char_insert p c) := by
  rw [char_insert]
  split_ifs
  · refine next (tame_stupid_insert _ _ _) fun p' => after fun _ => ?_
    exact next tame_get_one_char fun c' => next (tame_poke _ _) fun _ => .pure p'
  · refine after fun _ => next (tame_count _) fun _ => ?_
    exact next tame_end_cmd_q fun _ => .look fun s => .pure _
  · refine .look fun s => next (tame_plain_insert _ _) fun p' => ?_
    dsimp only
    split
    · exact (remembering_showmatching p).bind fun _ => .pure p'
    · exact .pure p'

lemma remembering_insert_key (c : Char) : Remembering (insert_key c) := by
  rw [insert_key]
  split_ifs
  · exact .sys _
  · exact .look fun s => (remembering_char_insert s.dot c).bind fun _ => .edit (tame_move _)
  · exact .pure ()

lemma remembering_replace_key (c : Char) : Remembering (replace_key c) := by
  have hinsert : Remembering (do
      let s ← edit look
      let dot ← char_insert s.dot c
      edit (move fun _ => dot) : Proc Unit) :=
    .look fun s => (remembering_char_insert s.dot c).bind fun _ => .edit (tame_move _)
  rw [replace_key]
  refine .look fun s => ?_
  split_ifs
  · exact .sys _
  · exact after fun _ => remembering_insert_key c
  · exact next (tame_yank_delete _ _ _ _) fun dot => next (tame_move _) fun _ => hinsert
  · exact hinsert
  · exact .pure ()

/-! ### Screen -/

lemma remembering_redraw_screen : Remembering redraw_screen := after fun _ => .sys _

lemma remembering_Hit_Return : Remembering Hit_Return := after fun _ => .sys _

lemma remembering_place_line : Remembering place_line := by
  rw [place_line]
  refine next tame_get_one_char fun c1 => .look fun s => after fun _ => ?_
  exact .edit ((quiet_dot_scroll (D := False) _ _).tame False.elim)

/-! ### Colon commands -/

lemma tame_next_string : Tame next_string :=
  tame_look.bind fun _ => (tame_set fun _ => ⟨rfl, rfl, rfl⟩).bind fun _ => tame_pure _

lemma tame_cut_line (buf : List Char) : Tame (cut_line buf) := tame_set fun _ => ⟨rfl, rfl, rfl⟩

lemma tame_keep_line : Tame keep_line := tame_set fun _ => ⟨rfl, rfl, rfl⟩

lemma remembering_get_one_address (p : List Char) : Remembering (get_one_address p) := by
  rw [get_one_address]
  refine .look fun s => ?_
  split
  · exact .pure _
  · exact next tame_next_string fun p => .pure _
  · dsimp only
    split
    · exact after fun addr => .pure _
    · exact .pure _
  · dsimp only
    split <;> exact .pure _
  · exact .pure _
  · split <;> exact .pure _
  · exact .pure _

lemma remembering_get_address (p : List Char) : Remembering (get_address p) := by
  rw [get_address]
  refine .look fun s => ?_
  split
  · exact .pure _
  · refine (remembering_get_one_address _).bind fun r => ?_
    dsimp only
    split
    · exact (remembering_get_one_address _).bind fun r' => .pure _
    · exact .pure _

lemma remembering_colon_substitute (l : Line) : Remembering (colon_substitute l) := by
  rw [colon_substitute]
  refine .look fun s => ?_
  split
  · exact next (tame_status_line _) fun _ => .pure _
  · dsimp only
    split_ifs
    all_goals first
      | exact next (tame_status_line _) fun _ => .pure _
      | exact next (tame_cut_line _) fun _ =>
          next (p := Program.perform .fuel) ⟨trivial, fun _ => trivial⟩ fun fuel =>
          next (tame_substitute_lines _ _ _ _ _ _ _) fun _ => .pure _

/-- A new buffer is another allocation. -/
lemma block_init_text_buffer {fn : Option (List Char)} {lost : Option Bool} {rc : ℤ}
    (hr : (init_text_buffer fn lost).run exec g = .done rc g') :
    g.block < g'.block ∧ Remembers g g' := by
  have hloaded : ∀ rc : ℤ, Remembering (do sys .loaded; return rc : Proc ℤ) :=
    fun rc => after fun _ => .pure rc
  rw [init_text_buffer] at hr
  obtain ⟨size, g₁, hr₁, hr⟩ := (Program.run_bind_eq_done _).mp hr
  obtain ⟨_, g₂, hr₂, hr⟩ := (Program.run_bind_eq_done _).mp hr
  have h₁ := Remembering.sys _ g g₁ size hr₁
  have h₂ := Remembering.sys _ g₁ g₂ () hr₂
  have hfresh : g₁.block < g₂.block := by
    rw [run_sys] at hr₂
    cases hr₂
    exact Nat.lt_succ_self _
  have h₃ : Remembers g₂ g' := by
    have hname : Tame (view fun s => { s.toView with current_filename := fn }) :=
      tame_set fun _ => ⟨rfl, rfl, rfl⟩
    refine Remembering.next hname (fun _ => ?_) g₂ g' rc hr
    dsimp only
    split
    · exact next (tame_plain_insert _ _) fun _ => hloaded 0
    · exact after fun rc => hloaded rc
  have hle := h₁.block_le
  have hle' := h₃.block_le
  exact ⟨by omega, (h₁.trans h₂).trans h₃⟩

/-- `:edit` empties the register, but not without moving the text. -/
lemma remembering_colon_edit (l : Line) : Remembering (colon_edit l) := by
  have hlast : ∀ g g' : Globals, (do
      edit (view fun s => { s.toView with
        reg := fun i => if i = Ureg ∨ i = s.YDreg then none else s.reg i })
      let s ← edit look
      let fn := String.ofList (s.current_filename.getD [])
      let size ← sys (.file_size s.current_filename)
      let new := if size < 0 then " [New file]" else ""
      let ro := if s.readonly_mode then " [Readonly]" else ""
      let li := s.count_lines 0 (s.end_ - 1)
      edit (status_line s!"\"{fn}\"{new}{ro} {li}L, 0C") : Proc Unit).run exec g = .done () g' →
        g'.base = g.base ∧ g.block ≤ g'.block ∧ (g.YDreg < Ureg → g'.YDreg < Ureg) := by
    intro g g' hr
    obtain ⟨_, g₁, hr₁, hr⟩ := (Program.run_bind_eq_done _).mp hr
    cases hr₁
    have h := Remembering.look (fun s => after fun size => .edit (tame_status_line _)) _ g' () hr
    exact ⟨h.base, h.block_le, h.reg_lt⟩
  rw [colon_edit]
  refine .look fun s => ?_
  split_ifs
  · exact .edit (tame_status_line _)
  · exact .edit (tame_status_line _)
  · intro g g' u hr
    obtain ⟨rc, g₁, hr₁, hr⟩ := (Program.run_bind_eq_done _).mp hr
    obtain ⟨hlt, h₁⟩ := block_init_text_buffer hr₁
    dsimp only at hr
    split at hr
    · obtain ⟨hbase, hle, hreg⟩ := hlast g₁ g' hr
      refine ⟨hbase.trans h₁.base, by omega, hreg ∘ h₁.reg_lt, fun _ hsame => ?_⟩
      omega
    · cases hr
      exact h₁

lemma remembering_colon_read (l : Line) : Remembering (colon_read l) := by
  rw [colon_read]
  split
  · exact .edit (tame_status_line _)
  · refine .look fun s => after fun ch => ?_
    split
    · refine after fun li => next (tame_status_line _) fun _ => ?_
      split
      · exact next (tame_set fun _ => ⟨rfl, rfl, rfl⟩) fun _ => .sys _
      · exact .pure _
    · exact .pure _

lemma remembering_colon_quit (l : Line) : Remembering (colon_quit l) := by
  rw [colon_quit]
  refine .look fun s => ?_
  dsimp only
  split_ifs
  · exact next (tame_set fun _ => ⟨rfl, rfl, rfl⟩) fun _ => .sys _
  · exact .sys _
  all_goals first | exact .edit (tame_status_line _) | exact .sys _

lemma remembering_colon_rewind (l : Line) : Remembering (colon_rewind l) := by
  rw [colon_rewind]
  refine .look fun s => ?_
  split_ifs
  · exact .edit (tame_status_line _)
  · exact next (tame_set fun _ => ⟨rfl, rfl, rfl⟩) fun _ => .sys _

lemma remembering_colon_write (l : Line) : Remembering (colon_write l) := by
  rw [colon_write]
  refine .look fun s => ?_
  dsimp only
  split_ifs
  · exact .edit (tame_status_line _)
  · refine after fun reason => after fun n => ?_
    split_ifs
    · exact .edit (tame_status_line _)
    · exact .pure ()
    · exact next (tame_status_line _) fun _ => .sys _
    · exact next (tame_status_line _) fun _ => .pure ()

lemma remembering_line_exec (l : Line) : Remembering l.exec := by
  rw [Line.exec]
  cases ColonCmd.of l.cmd with
  | goto =>
    dsimp only
    split
    · exact next (tame_move _) fun _ => .pure _
    · exact .pure _
  | run | features =>
    exact after fun _ => remembering_Hit_Return.bind fun _ => .pure _
  | list => exact remembering_Hit_Return.bind fun _ => .pure _
  | line_number => exact .look fun s => next (tame_status_line _) fun _ => .pure _
  | delete =>
    refine .look fun s => next (tame_yank_delete _ _ _ _) fun dot => ?_
    exact next (tame_move _) fun _ => .pure _
  | file =>
    dsimp only
    split_ifs
    · exact next (tame_not_implemented _) fun _ => .pure _
    · exact next (tame_set fun _ => ⟨rfl, rfl, rfl⟩) fun _ => .pure _
    · exact .pure _
  | edit => exact (remembering_colon_edit l).bind fun _ => .pure _
  | quit => exact (remembering_colon_quit l).bind fun _ => .pure _
  | read => exact (remembering_colon_read l).bind fun _ => .pure _
  | rewind => exact (remembering_colon_rewind l).bind fun _ => .pure _
  | set => exact next (tame_colon_set l) fun _ => .pure _
  | substitute => exact remembering_colon_substitute l
  | version => exact next (tame_status_line _) fun _ => .pure _
  | write => exact (remembering_colon_write l).bind fun _ => .pure _
  | yank =>
    refine .look fun s => next (tame_text_yank _ _) fun _ => .look fun t => ?_
    exact next (tame_status_line _) fun _ => .pure _
  | unknown => exact next (tame_not_implemented _) fun _ => .pure _

lemma remembering_colon (buf : List Char) : Remembering (colon buf) := by
  have hbound : Tame bound_dot := quiet_bound_dot.tame False.elim
  rw [colon]
  split
  · exact .edit hbound
  · refine (remembering_get_address _).bind fun r => (remembering_line_exec _).bind fun b => ?_
    split
    · exact .edit hbound
    · exact .pure ()

lemma remembering_initial_cmd (memory : List Char) : Remembering (initial_cmd memory) :=
  next (tame_set fun _ => ⟨rfl, rfl, rfl⟩) fun _ => remembering_colon _

/-! ### Keys -/

lemma remembering_exit_cmd : Remembering exit_cmd := by
  rw [exit_cmd]
  refine next tame_get_one_char fun c1 => ?_
  split_ifs
  · exact .edit tame_indicate_error
  · refine .look fun s => ?_
    split_ifs
    · exact .edit (tame_status_line _)
    · refine after fun reason => after fun cnt => ?_
      split_ifs
      · exact .edit (tame_status_line _)
      · exact .pure ()
      · exact .sys _
      · exact .pure ()
    · exact .sys _

lemma remembering_switch (c : Char) : Remembering (switch c) := by
  have hmode : ∀ (c : Char), Remembering (do dc_i; return some c : Proc (Option Char)) :=
    fun c => after fun _ => .pure _
  rw [switch]
  cases key_of c with
  | move m => exact next (tame_move_exec m c) fun on => .pure _
  | unknown => exact next (tame_not_implemented _) fun _ => next tame_end_cmd_q fun _ => .pure _
  | nul | function_key => exact .pure _
  | redraw => exact remembering_redraw_screen.bind fun _ => .pure _
  | esc =>
    refine .look fun s => ?_
    dsimp only
    split
    · refine next tame_indicate_error fun _ => after fun _ => ?_
      exact next tame_end_cmd_q fun _ => .pure _
    · exact after fun _ => next tame_end_cmd_q fun _ => .pure _
  | dot => exact after fun _ => .pure _
  | colon =>
    exact next (p := Program.perform (.get_input_line ':')) ⟨trivial, fun _ => trivial⟩ fun p =>
      (remembering_colon p).bind fun _ => next tame_keep_line fun _ => .pure _
  | put => exact next (tame_put c) fun _ => .pure _
  | undo_line => exact next tame_undo_line fun _ => .pure _
  | shift => exact (remembering_shift c).bind fun _ => .pure _
  | append_end => exact next (tame_move _) fun _ => next (tame_move _) fun _ => hmode c
  | append => exact next (tame_move _) fun _ => hmode c
  | insert_begin => exact next (tame_move _) fun _ => hmode c
  | insert => exact hmode c
  | replace_mode => exact after fun _ => .pure _
  | rest_of_line =>
    refine next tame_delete_rest fun _ => ?_
    dsimp only
    split
    · exact hmode c
    · exact next tame_end_cmd_q fun _ => .pure _
  | join => exact .look fun s => next (tame_join _) fun _ => .pure _
  | open_above => exact next tame_open_above fun _ => hmode c
  | open_below => exact next tame_open_below fun _ => hmode c
  | delete_char =>
    have hbody : ∀ c, Tame (do delete_char c; end_cmd_q : Cmd Unit) :=
      fun c => (tame_delete_char c).bind fun _ => tame_end_cmd_q
    exact next (tame_each (hbody _)) fun _ => .pure _
  | change_char => exact next (tame_delete_char c) fun _ => hmode c
  | exit => exact remembering_exit_cmd.bind fun _ => .pure _
  | operator =>
    refine next (tame_operator c) fun r => ?_
    dsimp only
    split
    · exact hmode _
    · exact .pure _
  | replace => exact next tame_replace_char fun _ => .pure _
  | tilde => exact next (tame_each tame_flip_case) fun _ => .pure _
  | z => exact remembering_place_line.bind fun _ => .pure _

/-- No command writes to what is kept for `U`, unless it moves the text. -/
theorem remembering_do_cmd (c : Char) : Remembering (do_cmd c) := by
  rw [do_cmd]
  refine .look fun s => ?_
  split
  · refine (remembering_switch c).bind fun k => ?_
    cases k with
    | some c => exact .edit (tame_dc1 c)
    | none => exact .pure _
  · dsimp only
    split
    · exact (remembering_replace_key c).bind fun _ => .edit (tame_dc1 c)
    · exact (remembering_insert_key c).bind fun _ => .edit (tame_dc1 c)

end EspLinux.Vi
