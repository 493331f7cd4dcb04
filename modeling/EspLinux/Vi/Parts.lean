import EspLinux.Vi.MainLoop

/-!
# vi: what the procedures are made of

Of the operations that only some commands need, each procedure uses a few.  The lemmas here say
which, for any property `P` that those few have; whatever is kept by the operations with `P` is then
kept by the procedure.
-/

namespace EspLinux.Vi

open Lib

/-- The operations that read a file into a new buffer. -/
def Sys.Loads : ∀ {β : Type}, Sys β → Prop
  | _, .file_size _ | _, .fresh_buffer _ _ | _, .loaded | _, .file_insert _ _ _ => True
  | _, _ => False

/-- The operations that write a file and end editing. -/
def Sys.Leaves : ∀ {β : Type}, Sys β → Prop
  | _, .strerror | _, .file_write _ _ _ _ _ | _, .leave _ => True
  | _, _ => False

/-- An operation of the editing commands, or one of the others with the property `P`. -/
def Parts (P : ∀ β : Type, Sys β → Prop) : ∀ β : Type, Op β → Prop
  | _, .inl _ => True
  | β, .inr o => P β o

variable {P : ∀ β : Type, Sys β → Prop} {α : Type}

lemma parts_edit (p : Cmd α) : (edit p).All (Parts P) := Program.All.lift (fun _ _ => trivial) p

lemma parts_sys {o : Sys α} (h : P α o) : (sys o).All (Parts P) := ⟨h, fun _ => trivial⟩

lemma parts_pure (a : α) : (pure a : Proc α).All (Parts P) := trivial

/-- After an editing command. -/
lemma parts_then {β : Type} {p : Cmd α} {f : α → Proc β} (hf : ∀ a, (f a).All (Parts P)) :
    (edit p >>= f).All (Parts P) := (parts_edit p).bind hf

/-- After one of the other operations. -/
lemma parts_after {β : Type} {o : Sys α} {f : α → Proc β} (h : P α o)
    (hf : ∀ a, (f a).All (Parts P)) : (sys o >>= f).All (Parts P) := (parts_sys h).bind hf

lemma along_look {G : ∀ β : Type, Op β → Globals → Prop} {g : Globals}
    (h : ∀ g, G Ed (.inl .look) g) (f : Ed → Proc α) :
    ((edit look).bind f).Along exec G g ↔ (f g.toEd).Along exec G g := by
  rw [edit, look, Program.perform, Program.lift, Program.call_bind, Program.along_call]
  refine ⟨fun hf => hf.2 _ _ rfl, fun hf => ⟨h g, ?_⟩⟩
  intro s g' hr
  cases hr
  exact hf

/-! ## Changes -/

lemma parts_shift_lines (hcheck : ∀ p, P Unit (.check p)) (hnext : ∀ p, P Ptr (.next_line p))
    (c : Char) (n : ℕ) (p : Ptr) : (shift_lines c n p).All (Parts P) := by
  induction n generalizing p with
  | zero => trivial
  | succ n ih =>
    rw [shift_lines]
    refine parts_after (hcheck p) fun _ => ?_
    dsimp only
    split
    · exact parts_then fun _ => parts_after (hnext p) fun p' => ih p'
    · exact parts_then fun _ => parts_after (hnext p) fun p' => ih p'

lemma parts_shift (hcheck : ∀ p, P Unit (.check p)) (hnext : ∀ p, P Ptr (.next_line p))
    (c : Char) : (shift c).All (Parts P) := by
  rw [shift]
  refine parts_then fun s => parts_then fun c1 => parts_then fun r => ?_
  refine parts_then fun _ => parts_then fun t => ?_
  exact (parts_shift_lines hcheck hnext c _ _).bind fun _ => parts_then fun _ => parts_edit _

lemma parts_showmatching (hrefresh : P Unit .refresh) (p : ℤ) :
    (showmatching p).All (Parts P) := by
  rw [showmatching]
  refine parts_then fun s => ?_
  split
  · exact parts_edit _
  · refine parts_then fun _ => ?_
    exact parts_after hrefresh fun _ => parts_then fun _ => parts_sys hrefresh

lemma parts_char_insert (hrefresh : P Unit .refresh) (hmode : P Unit (.set_mode .command)) (p : ℤ)
    (c : Char) : (char_insert p c).All (Parts P) := by
  rw [char_insert]
  split_ifs
  · refine parts_then fun p' => parts_after hrefresh fun _ => ?_
    exact parts_then fun c' => parts_then fun _ => parts_pure p'
  · refine parts_after hmode fun _ => ?_
    exact parts_then fun _ => parts_then fun _ => parts_then fun s => parts_pure _
  · refine parts_then fun s => parts_then fun p' => ?_
    dsimp only
    split
    · exact (parts_showmatching hrefresh p).bind fun _ => parts_pure p'
    · exact parts_pure p'

lemma parts_insert_key (hrefresh : P Unit .refresh) (hmode : ∀ m, P Unit (.set_mode m)) (c : Char) :
    (insert_key c).All (Parts P) := by
  rw [insert_key]
  split_ifs
  · exact parts_sys (hmode _)
  · refine parts_then fun s => ?_
    exact (parts_char_insert hrefresh (hmode _) s.dot c).bind fun _ => parts_edit _
  · exact parts_pure ()

lemma parts_replace_key (hrefresh : P Unit .refresh) (hmode : ∀ m, P Unit (.set_mode m))
    (c : Char) : (replace_key c).All (Parts P) := by
  have hinsert : (do
      let s ← edit look
      let dot ← char_insert s.dot c
      edit (move fun _ => dot) : Proc Unit).All (Parts P) :=
    parts_then fun s => (parts_char_insert hrefresh (hmode _) s.dot c).bind fun _ => parts_edit _
  rw [replace_key]
  refine parts_then fun s => ?_
  split_ifs
  · exact parts_sys (hmode _)
  · exact parts_after (hmode _) fun _ => parts_insert_key hrefresh hmode c
  · exact parts_then fun dot => parts_then fun _ => hinsert
  · exact hinsert
  · exact parts_pure ()

/-! ## Screen -/

lemma parts_redraw_screen (hcreate : P Unit .createScreen) (hrefresh : P Unit .refresh) :
    redraw_screen.All (Parts P) := parts_after hcreate fun _ => parts_sys hrefresh

lemma parts_Hit_Return (hhit : P Unit .hit_return) (hrefresh : P Unit .refresh) :
    Hit_Return.All (Parts P) := parts_after hhit fun _ => parts_sys hrefresh

lemma parts_place_line (htop : P Unit .top) : place_line.All (Parts P) := by
  rw [place_line]
  exact parts_then fun c1 => parts_then fun s => parts_after htop fun _ => parts_edit _

/-! ## Colon commands -/

lemma parts_get_one_address (hmark : ∀ i, P (Option ℤ) (.mark_line i)) (p : List Char) :
    (get_one_address p).All (Parts P) := by
  rw [get_one_address]
  refine parts_then fun s => ?_
  split
  · exact parts_pure _
  · exact parts_then fun p => parts_pure _
  · dsimp only
    split
    · exact parts_after (hmark _) fun addr => parts_pure _
    · exact parts_pure _
  · dsimp only
    split <;> exact parts_pure _
  · exact parts_pure _
  · split <;> exact parts_pure _
  · exact parts_pure _

lemma parts_get_address (hmark : ∀ i, P (Option ℤ) (.mark_line i)) (p : List Char) :
    (get_address p).All (Parts P) := by
  rw [get_address]
  refine parts_then fun s => ?_
  split
  · exact parts_pure _
  · refine (parts_get_one_address hmark _).bind fun r => ?_
    dsimp only
    split
    · exact (parts_get_one_address hmark _).bind fun r' => parts_pure _
    · exact parts_pure _

lemma parts_colon_substitute (l : Line) : (colon_substitute l).All (Parts P) := by
  rw [colon_substitute]
  refine parts_then fun s => ?_
  split
  · exact parts_then fun _ => parts_pure _
  · dsimp only
    split_ifs
    all_goals first
      | exact parts_then fun _ => parts_pure _
      | exact parts_then fun _ => parts_then fun fuel => parts_then fun _ => parts_pure _

lemma parts_init_text_buffer (hloads : ∀ (β : Type) (o : Sys β), o.Loads → P β o)
    (fn : Option (List Char)) (lost : Option Bool) : (init_text_buffer fn lost).All (Parts P) := by
  have hloaded : ∀ rc : ℤ, (do sys .loaded; return rc : Proc ℤ).All (Parts P) :=
    fun rc => parts_after (hloads _ _ trivial) fun _ => parts_pure rc
  rw [init_text_buffer]
  refine parts_after (hloads _ _ trivial) fun size => parts_after (hloads _ _ trivial) fun _ => ?_
  refine parts_then fun _ => ?_
  dsimp only
  split
  · exact parts_then fun _ => hloaded 0
  · exact parts_after (hloads _ _ trivial) fun rc => hloaded rc

lemma parts_colon_edit (hloads : ∀ (β : Type) (o : Sys β), o.Loads → P β o) (l : Line) :
    (colon_edit l).All (Parts P) := by
  rw [colon_edit]
  refine parts_then fun s => ?_
  split_ifs
  · exact parts_edit _
  · exact parts_edit _
  · refine (parts_init_text_buffer hloads _ _).bind fun rc => ?_
    split_ifs
    · refine parts_then fun _ => parts_then fun t => ?_
      exact parts_after (hloads _ _ trivial) fun size => parts_edit _
    · exact parts_pure ()

lemma parts_colon_read (hfile : ∀ fn p ro, P ℤ (.file_insert fn p ro))
    (hcount : ∀ q ch, P ℕ (.count_lines q ch)) (htouch : P Unit .touch) (l : Line) :
    (colon_read l).All (Parts P) := by
  rw [colon_read]
  split
  · exact parts_edit _
  · refine parts_then fun s => parts_after (hfile _ _ _) fun ch => ?_
    split
    · refine parts_after (hcount _ _) fun li => parts_then fun _ => ?_
      split
      · exact parts_then fun _ => parts_sys htouch
      · exact parts_pure _
    · exact parts_pure _

lemma parts_colon_quit (hleaves : ∀ (β : Type) (o : Sys β), o.Leaves → P β o) (l : Line) :
    (colon_quit l).All (Parts P) := by
  rw [colon_quit]
  refine parts_then fun s => ?_
  dsimp only
  split_ifs
  · exact parts_then fun _ => parts_sys (hleaves _ _ trivial)
  · exact parts_sys (hleaves _ _ trivial)
  all_goals first | exact parts_edit _ | exact parts_sys (hleaves _ _ trivial)

lemma parts_colon_rewind (hleaves : ∀ (β : Type) (o : Sys β), o.Leaves → P β o) (l : Line) :
    (colon_rewind l).All (Parts P) := by
  rw [colon_rewind]
  refine parts_then fun s => ?_
  split_ifs
  · exact parts_edit _
  · exact parts_then fun _ => parts_sys (hleaves _ _ trivial)

lemma parts_colon_write (hleaves : ∀ (β : Type) (o : Sys β), o.Leaves → P β o) (l : Line) :
    (colon_write l).All (Parts P) := by
  rw [colon_write]
  refine parts_then fun s => ?_
  dsimp only
  split_ifs
  · exact parts_edit _
  · refine parts_after (hleaves _ _ trivial) fun reason => parts_after (hleaves _ _ trivial) fun n => ?_
    split_ifs
    · exact parts_edit _
    · exact parts_pure ()
    · exact parts_then fun _ => parts_sys (hleaves _ _ trivial)
    · exact parts_then fun _ => parts_pure ()

/-- The commands that wait for Return. -/
def ColonCmd.Waits (cmd : ColonCmd) : Prop := cmd = run ∨ cmd = features ∨ cmd = list

/-- The commands that may end editing. -/
def ColonCmd.Leaves (cmd : ColonCmd) : Prop := cmd = quit ∨ cmd = rewind ∨ cmd = write

lemma parts_line_exec (l : Line)
    (hedit : ColonCmd.of l.cmd = .edit → ∀ (β : Type) (o : Sys β), o.Loads → P β o)
    (hleave : (ColonCmd.of l.cmd).Leaves → ∀ (β : Type) (o : Sys β), o.Leaves → P β o)
    (hread : ColonCmd.of l.cmd = .read → (∀ fn p ro, P ℤ (.file_insert fn p ro)) ∧
      (∀ q ch, P ℕ (.count_lines q ch)) ∧ P Unit .touch)
    (hwait : (ColonCmd.of l.cmd).Waits → P Unit .rawmode ∧ P Unit .hit_return ∧ P Unit .refresh) :
    l.exec.All (Parts P) := by
  rw [Line.exec]
  cases hcmd : ColonCmd.of l.cmd with
  | goto =>
    dsimp only
    split
    · exact parts_then fun _ => parts_pure _
    · exact parts_pure _
  | run | features =>
    obtain ⟨hraw, hhit, hrefresh⟩ := hwait (by simp [hcmd, ColonCmd.Waits])
    exact parts_after hraw fun _ => (parts_Hit_Return hhit hrefresh).bind fun _ => parts_pure _
  | list =>
    obtain ⟨-, hhit, hrefresh⟩ := hwait (by simp [hcmd, ColonCmd.Waits])
    exact (parts_Hit_Return hhit hrefresh).bind fun _ => parts_pure _
  | line_number => exact parts_then fun s => parts_then fun _ => parts_pure _
  | delete => exact parts_then fun s => parts_then fun dot => parts_then fun _ => parts_pure _
  | file =>
    dsimp only
    split_ifs
    · exact parts_then fun _ => parts_pure _
    · exact parts_then fun _ => parts_pure _
    · exact parts_pure _
  | edit => exact (parts_colon_edit (hedit hcmd) l).bind fun _ => parts_pure _
  | quit =>
    have hleaves := hleave (by simp [hcmd, ColonCmd.Leaves])
    exact (parts_colon_quit hleaves l).bind fun _ => parts_pure _
  | read =>
    obtain ⟨hfile, hcount, htouch⟩ := hread hcmd
    exact (parts_colon_read hfile hcount htouch l).bind fun _ => parts_pure _
  | rewind =>
    have hleaves := hleave (by simp [hcmd, ColonCmd.Leaves])
    exact (parts_colon_rewind hleaves l).bind fun _ => parts_pure _
  | set | version | unknown => exact parts_then fun _ => parts_pure _
  | substitute => exact parts_colon_substitute l
  | write =>
    have hleaves := hleave (by simp [hcmd, ColonCmd.Leaves])
    exact (parts_colon_write hleaves l).bind fun _ => parts_pure _
  | yank =>
    refine parts_then fun s => parts_then fun _ => parts_then fun t => ?_
    exact parts_then fun _ => parts_pure _

/-! ## Keys -/

lemma parts_exit_cmd (hleaves : ∀ (β : Type) (o : Sys β), o.Leaves → P β o) :
    exit_cmd.All (Parts P) := by
  rw [exit_cmd]
  refine parts_then fun c1 => ?_
  split_ifs
  · exact parts_edit _
  · refine parts_then fun s => ?_
    split_ifs
    · exact parts_edit _
    · refine parts_after (hleaves _ _ trivial) fun reason => ?_
      refine parts_after (hleaves _ _ trivial) fun cnt => ?_
      split_ifs
      · exact parts_edit _
      · exact parts_pure ()
      · exact parts_sys (hleaves _ _ trivial)
      · exact parts_pure ()
    · exact parts_sys (hleaves _ _ trivial)

/-- The keys in command mode, but the one that starts a colon command. -/
lemma parts_switch (hmode : ∀ m, P Unit (.set_mode m)) (c : Char) (hcolon : key_of c ≠ .colon)
    (hexit : key_of c = .exit → ∀ (β : Type) (o : Sys β), o.Leaves → P β o)
    (hz : key_of c = .z → P Unit .top)
    (hredraw : key_of c = .redraw → P Unit .createScreen ∧ P Unit .refresh)
    (hdot : key_of c = .dot → P Unit .repeat_cmd)
    (hshift : key_of c = .shift → (∀ p, P Unit (.check p)) ∧ ∀ p, P Ptr (.next_line p)) :
    (switch c).All (Parts P) := by
  have hmodes : ∀ (m : Mode) (c : Char), (do
      sys (.set_mode m)
      return some c : Proc (Option Char)).All (Parts P) :=
    fun m c => parts_after (hmode m) fun _ => parts_pure _
  rw [switch]
  cases hk : key_of c with
  | colon => exact absurd hk hcolon
  | exit => exact (parts_exit_cmd (hexit hk)).bind fun _ => parts_pure _
  | move m => exact parts_then fun on => parts_pure _
  | unknown => exact parts_then fun _ => parts_then fun _ => parts_pure _
  | put | undo_line | replace | tilde | delete_char => exact parts_then fun _ => parts_pure _
  | join => exact parts_then fun s => parts_then fun _ => parts_pure _
  | append_end => exact parts_then fun _ => parts_then fun _ => hmodes _ _
  | append | insert_begin | open_above | open_below | change_char =>
    exact parts_then fun _ => hmodes _ _
  | nul | function_key => exact parts_pure _
  | redraw =>
    obtain ⟨hcreate, hrefresh⟩ := hredraw hk
    exact (parts_redraw_screen hcreate hrefresh).bind fun _ => parts_pure _
  | esc =>
    refine parts_then fun s => ?_
    dsimp only
    split
    · exact parts_then fun _ => parts_after (hmode _) fun _ => parts_then fun _ => parts_pure _
    · exact parts_after (hmode _) fun _ => parts_then fun _ => parts_pure _
  | dot => exact parts_after (hdot hk) fun _ => parts_pure _
  | shift =>
    obtain ⟨hcheck, hnext⟩ := hshift hk
    exact (parts_shift hcheck hnext c).bind fun _ => parts_pure _
  | insert => exact hmodes _ _
  | replace_mode => exact hmodes _ _
  | rest_of_line =>
    refine parts_then fun _ => ?_
    dsimp only
    split
    · exact hmodes _ _
    · exact parts_then fun _ => parts_pure _
  | operator =>
    refine parts_then fun r => ?_
    dsimp only
    split
    · exact hmodes _ _
    · exact parts_pure _
  | z => exact (parts_place_line (hz hk)).bind fun _ => parts_pure _

end EspLinux.Vi
