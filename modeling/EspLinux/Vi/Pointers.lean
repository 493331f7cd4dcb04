import EspLinux.Vi.Parts
import EspLinux.Vi.Text

/-!
# vi: the pointers into the text

The end of the text stays inside the allocation, and the cursor is brought back into the text at the
end of every command.  The beginning of the screen is another matter: it is set where the screen is
drawn, which is put off as long as keys are waiting, and no deletion looks at it.  So it may be left
behind the end of the text.
-/

namespace EspLinux.Vi

open Lib

/-! ## The invariant of the operations -/

/-- The text lies in its allocation, the screen begins in the text, and Return does not erase. -/
structure Framed (g : Globals) : Prop where
  end_nonneg : 0 ≤ g.end_
  end_le : g.end_ ≤ g.text_size
  begin_nonneg : 0 ≤ g.screenbegin
  begin_le : g.screenbegin ≤ max (g.end_ - 1) 0
  erase : g.erase_char ≠ '\n'

/-- The line of the cursor can be shown without going behind the text. -/
def Fits (g : Globals) : Prop := 3 ≤ g.rows ∨ g.begin_line g.dot < max g.end_ 1

/-- The cursor is in the text or just behind it. -/
def Inside (g : Globals) : Prop := 0 ≤ g.dot ∧ g.dot ≤ g.end_

/-- Nothing that matters here has changed but that the text may have grown. -/
lemma Framed.grow {g g' : Globals} (hg : Framed g) (hend : g.end_ ≤ g'.end_)
    (hsize : g'.end_ ≤ g'.text_size) (hbegin : g'.screenbegin = g.screenbegin)
    (herase : g'.erase_char = g.erase_char) : Framed g' := by
  have := hg.end_nonneg
  have := hg.begin_nonneg
  have := hg.begin_le
  exact ⟨by omega, hsize, by omega, by omega, by rw [herase]; exact hg.erase⟩

lemma Framed.same {g g' : Globals} (hg : Framed g) (hend : g'.end_ = g.end_)
    (hsize : g'.text_size = g.text_size) (hbegin : g'.screenbegin = g.screenbegin)
    (herase : g'.erase_char = g.erase_char) : Framed g' :=
  hg.grow hend.ge (by rw [hend, hsize]; exact hg.end_le) hbegin herase

/-- The beginning of the screen has moved. -/
lemma Framed.screen {g g' : Globals} (hg : Framed g) (hend : g'.end_ = g.end_)
    (hsize : g'.text_size = g.text_size) (h0 : 0 ≤ g'.screenbegin)
    (hle : g'.screenbegin ≤ max (g.end_ - 1) 0) (herase : g'.erase_char = g.erase_char) :
    Framed g' :=
  ⟨by rw [hend]; exact hg.end_nonneg, by rw [hend, hsize]; exact hg.end_le, h0,
    by rw [hend]; exact hle, by rw [herase]; exact hg.erase⟩

lemma Framed.text_hole_make {g : Globals} (hg : Framed g) (p size : ℤ) :
    Framed (g.text_hole_make p size) := by
  have hend := g.end_text_hole_make p size
  exact hg.grow (by omega) (g.text_hole_make_fits p size hg.end_le)
    (g.screenbegin_text_hole_make p size) (g.erase_char_text_hole_make p size)

lemma Framed.insert {g : Globals} (hg : Framed g) (p : ℤ) (s : List Char) : Framed (g.insert p s) :=
  (hg.text_hole_make p s.length).same rfl rfl rfl rfl

/-- A deletion that leaves the character at the beginning of the screen. -/
lemma Framed.deleted {g : Globals} (hg : Framed g) {p q : ℤ} (hpq : p ≤ q)
    (hbegin : 0 ≤ p → q < g.end_ → g.screenbegin = 0 ∨ q - p + 1 < g.end_ - g.screenbegin) :
    Framed (g.deleted p q) := by
  by_cases hout : p < 0 ∨ g.end_ ≤ q
  · have hsame := Buffer.text_hole_delete_outside hpq hout
    refine hg.same ?_ rfl rfl rfl
    rw [Globals.deleted, hsame]
  · have hle := Buffer.end_text_hole_delete_le (b := g.toBuffer) (p := p) (q := q) (by omega)
      hg.end_nonneg
    have hge := Buffer.le_end_text_hole_delete (b := g.toBuffer) (p := p) (q := q) (by omega)
      hg.end_nonneg
    have h := hbegin (by omega) (by omega)
    have h0 := hg.begin_nonneg
    have h1 := hg.end_le
    have h2 := hg.begin_le
    refine ⟨?_, ?_, h0, ?_, hg.erase⟩
    · show 0 ≤ (g.toBuffer.text_hole_delete p q).2.end_
      omega
    · show (g.toBuffer.text_hole_delete p q).2.end_ ≤ g.text_size
      omega
    · show g.screenbegin ≤ max ((g.toBuffer.text_hole_delete p q).2.end_ - 1) 0
      omega

/-! ## The beginning of the screen -/

lemma Ed.le_end_screen (s : Ed) : s.screenbegin ≤ s.end_screen :=
  (Buffer.le_iterate_next_line _).trans Buffer.le_end_line

/-- Where the screen begins when the line `beg_cur` is shown. -/
lemma Ed.scrolled_bounds (s : Ed) {beg_cur : ℤ} (h0 : 0 ≤ s.screenbegin)
    (hbegin : s.screenbegin ≤ max (s.end_ - 1) 0) (hb0 : 0 ≤ beg_cur) (hb : beg_cur ≤ s.end_)
    (hfit : 3 ≤ s.rows ∨ beg_cur < max s.end_ 1) :
    0 ≤ s.scrolled beg_cur ∧ s.scrolled beg_cur ≤ max (s.end_ - 1) 0 := by
  have hscreen := s.le_end_screen
  have hprev := Buffer.iterate_prev_line_nonneg (b := s.toBuffer) ((s.rows - 1) / 2) hb0
  have hprev_le := Buffer.iterate_prev_line_le (b := s.toBuffer) (p := beg_cur) ((s.rows - 1) / 2)
  simp only [scrolled]
  split_ifs with hup hmoved hdown hfar
  · -- up, by more than half a screen
    exact ⟨hprev, by omega⟩
  · exact ⟨hb0, by omega⟩
  · -- down, by more than half a screen
    refine ⟨hprev, ?_⟩
    obtain hrows | hlt := hfit
    · have hlt : s.prev_line^[(s.rows - 1) / 2] beg_cur < beg_cur := by
        obtain ⟨n, hn⟩ : ∃ n, (s.rows - 1) / 2 = n + 1 := ⟨(s.rows - 1) / 2 - 1, by omega⟩
        rw [hn, Function.iterate_succ_apply]
        have hle := Buffer.iterate_prev_line_le (b := s.toBuffer) (p := s.prev_line beg_cur) n
        have hlt := Buffer.prev_line_lt (b := s.toBuffer) (p := beg_cur) (by omega)
        omega
      omega
    · omega
  · exact ⟨h0.trans (Buffer.le_iterate_next_line _), Buffer.iterate_next_line_le _ hbegin⟩
  · exact ⟨h0, hbegin⟩

lemma Globals.refresh_view (g : Globals) :
    g.refresh.toBuffer = g.toBuffer ∧ g.refresh.toView = g.toView ∧
      g.refresh.text_size = g.text_size ∧ g.refresh.rows = g.rows ∧
      g.refresh.erase_char = g.erase_char := by
  rw [refresh]
  split <;> exact ⟨rfl, rfl, rfl, rfl, rfl⟩

lemma Framed.refresh {g : Globals} (hg : Framed g) (hdot : Inside g) (hfit : Fits g) :
    Framed g.refresh := by
  have hbeg := Buffer.begin_line_le (b := g.toBuffer) (p := g.dot)
  have hbeg0 := Buffer.begin_line_nonneg (b := g.toBuffer) hdot.1
  have hscroll := g.toEd.scrolled_bounds hg.begin_nonneg hg.begin_le hbeg0
    (hbeg.trans hdot.2) hfit
  rw [Globals.refresh]
  split
  · exact hg.same rfl rfl rfl rfl
  · exact hg.screen rfl rfl hscroll.1 hscroll.2 rfl

/-- The cursor is inside and its line fits as before. -/
lemma Inside.refresh {g : Globals} (h : Inside g) : Inside g.refresh := by
  obtain ⟨hb, hv, -, -, -⟩ := g.refresh_view
  rw [Inside, hb, hv]
  exact h

lemma Fits.refresh {g : Globals} (h : Fits g) : Fits g.refresh := by
  obtain ⟨hb, hv, -, hr, -⟩ := g.refresh_view
  rw [Fits, hb, hv, hr]
  exact h

lemma Framed.scroll {g : Globals} (hg : Framed g) (cnt : ℕ) (dir : Dir) :
    Framed { g with screenbegin := g.toEd.scroll cnt dir } := by
  have h0 := hg.begin_nonneg
  have hle := hg.begin_le
  cases dir with
  | forward =>
    exact hg.screen rfl rfl (h0.trans (Buffer.le_iterate_next_line _))
      (Buffer.iterate_next_line_le _ hle) rfl
  | back =>
    exact hg.screen rfl rfl (Buffer.iterate_prev_line_nonneg _ h0)
      ((Buffer.iterate_prev_line_le _).trans hle) rfl

/-! ## Files -/

/-- What is read of a file is all of it, or no more than half of it: where less is missing,
`file_insert` closes its hole the wrong way round. -/
def read_enough (found : Found) : Bool :=
  match found.st_size, found.data with
  | some size, some data => size ≤ data.length || 2 * data.length ≤ size
  | _, _ => true

lemma Framed.read_in {g : Globals} (hg : Framed g) {found : Found} {size : ℕ} (fn : List Char)
    {p : ℤ} (hsize : found.st_size = some size) (h : read_enough found = true) :
    Framed (g.read_in fn p size found).2 := by
  have hhole := hg.text_hole_make p size
  have hend := g.end_text_hole_make p size
  have hdel : ∀ (g' : Globals) (p q : ℤ), p - 1 ≤ q → q - p + 1 ≤ size → Framed g' →
      g'.end_ = g.end_ + size → g'.screenbegin = g.screenbegin → Framed (g'.deleted p q) := by
    intro g' p q hpq hlen hg' hend' hbegin'
    have hle := Buffer.end_text_hole_delete_le (b := g'.toBuffer) hpq hg'.end_nonneg
    have hge := Buffer.le_end_text_hole_delete (b := g'.toBuffer) hpq hg'.end_nonneg
    have h0 := hg'.begin_nonneg
    have h1 := hg'.end_le
    have h2 := hg.begin_le
    have h3 := hg.end_nonneg
    refine ⟨?_, ?_, h0, ?_, hg'.erase⟩
    · show 0 ≤ (g'.toBuffer.text_hole_delete p q).2.end_
      omega
    · show (g'.toBuffer.text_hole_delete p q).2.end_ ≤ g'.text_size
      omega
    · show g'.screenbegin ≤ max ((g'.toBuffer.text_hole_delete p q).2.end_ - 1) 0
      omega
  rw [Globals.read_in]
  cases hdata : found.data with
  | none =>
    refine (hdel _ _ _ ?_ ?_ hhole ?_ ?_).same rfl rfl rfl rfl
    · omega
    · omega
    · omega
    · exact g.screenbegin_text_hole_make p size
  | some data =>
    have henough : size ≤ data.length ∨ 2 * data.length ≤ size := by
      simpa [read_enough, hsize, hdata] using h
    have hstore : Framed { g.text_hole_make p size with
        mem := Buffer.store (g.text_hole_make p size).mem p (data.take size) } :=
      hhole.same rfl rfl rfl rfl
    dsimp only
    split
    · rename_i hshort
      rw [List.length_take] at hshort ⊢
      refine (hdel _ _ _ ?_ ?_ hstore ?_ ?_).same rfl rfl rfl rfl
      · omega
      · omega
      · exact hend.trans (by omega)
      · exact g.screenbegin_text_hole_make p size
    · exact hstore.same rfl rfl rfl rfl

lemma Framed.file_insert {g : Globals} (hg : Framed g) (fn : List Char) (p : ℤ) (ro : Bool)
    (h : read_enough (g.world.files.headD ⟨none, false, false, none, false, ""⟩) = true) :
    Framed (g.file_insert fn p ro).2 := by
  have hfound : ∀ g' : Globals, Framed g' → Framed (g'.insert_found fn p
      (g.world.files.headD ⟨none, false, false, none, false, ""⟩)).2 := by
    intro g' hg'
    rw [Globals.insert_found]
    cases hsize : (g.world.files.headD ⟨none, false, false, none, false, ""⟩).st_size with
    | none => exact hg'.same rfl rfl rfl rfl
    | some size =>
      dsimp only
      split_ifs
      all_goals first
        | exact hg'.same rfl rfl rfl rfl
        | exact hg'.read_in fn hsize h
  rw [Globals.file_insert]
  have hworld : Framed { g with world := { g.world with files := g.world.files.tail } } :=
    hg.same rfl rfl rfl rfl
  dsimp only
  split
  · exact (hfound _ hworld).same rfl rfl rfl rfl
  · exact hfound _ hworld

lemma Globals.file_write_view (g : Globals) (fn : Option (List Char)) (first last : ℤ) :
    (g.file_write fn first last).2.toEd = g.toEd ∧
      (g.file_write fn first last).2.text_size = g.text_size := by
  simp only [file_write]
  split_ifs <;> exact ⟨rfl, rfl⟩

/-! ## The operations -/

/-- What the code does not check.  A deletion leaves the character at which the screen begins, if
it does not begin with the text; an error is shown by drawing the screen only when the cursor is in
the text; the line of the cursor begins in the text when the screen is made to begin there, or has
two lines; Return is not the user's erase character; and files are read as far as needed. -/
def Proper : ∀ β : Type, Op β → Globals → Prop
  | _, .inl (.text_hole_delete p q _), g =>
    0 ≤ p → q < g.end_ → g.screenbegin = 0 ∨ q - p + 1 < g.end_ - g.screenbegin
  | _, .inl .indicate_error, g => g.err_method → Inside g ∧ Fits g
  | _, .inr .refresh, g => Fits g
  | _, .inr .top, g => g.begin_line g.dot < max g.end_ 1
  | _, .inr .rawmode, g => g.world.erase.headD g.erase_char ≠ '\n'
  | _, .inr (.file_insert _ _ _), g =>
    read_enough (g.world.files.headD ⟨none, false, false, none, false, ""⟩)
  | _, _, _ => True

instance (g : Globals) : Decidable (Fits g) := inferInstanceAs (Decidable (_ ∨ _))

instance (g : Globals) : Decidable (Inside g) := inferInstanceAs (Decidable (_ ∧ _))

instance (β : Type) (o : Op β) (g : Globals) : Decidable (Proper β o g) :=
  match β, o with
  | _, .inl (.text_hole_delete _ _ _) => inferInstanceAs (Decidable (_ → _ → _ ∨ _))
  | _, .inl .indicate_error => inferInstanceAs (Decidable (_ → Inside g ∧ Fits g))
  | _, .inr .refresh => inferInstanceAs (Decidable (Fits g))
  | _, .inr .top => inferInstanceAs (Decidable (_ < _))
  | _, .inr .rawmode => inferInstanceAs (Decidable (_ ≠ _))
  | _, .inr (.file_insert _ _ _) => inferInstanceAs (Decidable (_ = true))
  | _, .inl .look | _, .inl (.view _) | _, .inl (.status_line _) | _, .inl .fuel
  | _, .inl .get_one_char | _, .inl (.get_input_line _) | _, .inl .end_cmd_q
  | _, .inl (.stupid_insert _ _ _) | _, .inl (.string_insert _ _) | _, .inl (.poke _ _)
  | _, .inl (.scroll _ _) | _, .inl (.set_mark _) | _, .inl (.goto_mark _)
  | _, .inl (.check_context _) | _, .inl .swap_context | _, .inl (.stop _)
  | _, .inr (.set_mode _) | _, .inr .createScreen | _, .inr .hit_return | _, .inr (.remember _)
  | _, .inr .repeat_cmd | _, .inr (.check _) | _, .inr (.next_line _)
  | _, .inr (.count_lines _ _) | _, .inr (.mark_line _) | _, .inr (.file_size _)
  | _, .inr (.fresh_buffer _ _) | _, .inr .loaded | _, .inr .strerror
  | _, .inr (.file_write _ _ _ _ _) | _, .inr .touch | _, .inr (.leave _)
  | _, .inr .start => inferInstanceAs (Decidable True)

/-- The cursor is in the text when the screen is drawn, or made to begin at its line, and the size of
a new buffer is that of a file, or -1. -/
def Aimed : ∀ β : Type, Op β → Globals → Prop
  | _, .inr .refresh, g => Inside g
  | _, .inr .top, g => Inside g
  | _, .inr (.fresh_buffer size _), _ => -1 ≤ size
  | _, _, _ => True

/-- The operations keep the frame. -/
lemma exec_framed {β : Type} (o : Op β) (g : Globals) (hg : Framed g)
    (ho : Proper β o g ∧ Aimed β o g) : (exec β o g).Ends (fun _ => Framed) (fun _ => True) := by
  obtain ⟨hproper, haimed⟩ := ho
  rw [Outcome.ends_iff_of_done]
  intro b g' h
  cases o with
  | inl o =>
    cases o with
    | look | view | status_line | fuel | end_cmd_q | set_mark | check_context | poke =>
      cases h
      exact hg.same rfl rfl rfl rfl
    | indicate_error =>
      cases h
      split
      · rename_i hflash
        obtain ⟨hin, hfit⟩ := hproper hflash
        exact (hg.refresh hin hfit).refresh hin.refresh hfit.refresh
      · exact hg
    | get_one_char | get_input_line =>
      simp only [exec_inl, Edit.exec, Edit.typed] at h
      split at h <;> cases h
      exact hg.same rfl rfl rfl rfl
    | stupid_insert p c held =>
      simp only [exec_inl, Edit.exec] at h
      split at h <;> cases h
      exact hg.insert p [c]
    | string_insert p s =>
      simp only [exec_inl, Edit.exec] at h
      split at h <;> cases h
      exact hg.insert p s
    | text_hole_delete p q hpq =>
      cases h
      exact hg.deleted hpq hproper
    | scroll cnt dir =>
      cases h
      exact hg.scroll cnt dir
    | goto_mark =>
      simp only [exec_inl, Edit.exec] at h
      repeat' split at h
      all_goals cases h
      all_goals exact hg
    | swap_context =>
      simp only [exec_inl, Edit.exec] at h
      repeat' split at h
      all_goals cases h
      all_goals exact hg.same rfl rfl rfl rfl
    | stop e => cases h
  | inr o =>
    cases o with
    | refresh =>
      cases h
      exact hg.refresh haimed hproper
    | top =>
      cases h
      exact hg.screen rfl rfl (Buffer.begin_line_nonneg haimed.1)
        (by have := hproper; simp only [Proper] at this; show g.begin_line g.dot ≤ _; omega) rfl
    | set_mode | createScreen | strerror | start | loaded | touch | leave =>
      cases h
      exact hg.same rfl rfl rfl rfl
    | rawmode =>
      cases h
      exact ⟨hg.end_nonneg, hg.end_le, hg.begin_nonneg, hg.begin_le, hproper⟩
    | remember | repeat_cmd =>
      cases h
      split
      all_goals exact hg.same rfl rfl rfl rfl
    | hit_return =>
      obtain ⟨overrun, q, rfl⟩ := hit_return_done h
      exact hg.same rfl rfl rfl rfl
    | check | next_line | count_lines | mark_line =>
      simp only [exec_inr, Sys.exec] at h
      repeat' split at h
      all_goals cases h
      all_goals exact hg
    | file_size =>
      simp only [exec_inr, Sys.exec] at h
      split at h <;> cases h
      all_goals exact hg.same rfl rfl rfl rfl
    | file_insert fn p ro =>
      cases h
      exact hg.file_insert fn p ro hproper
    | fresh_buffer size lost =>
      have hsize : -1 ≤ size := haimed
      cases h
      have hfits : 0 ≤ size + 10240 := by omega
      exact ⟨le_refl 0, hfits, le_refl 0, le_max_right _ _, hg.erase⟩
    | file_write colon leaving fn first last =>
      obtain ⟨hed, hsize⟩ := g.file_write_view fn first last
      have hg' : Framed (g.file_write fn first last).2 :=
        hg.same (by rw [hed]) hsize (by rw [hed]) (by rw [hed])
      cases h
      split
      · exact hg'.same rfl rfl rfl rfl
      · exact hg'

/-! ## Where the cursor is when the screen is drawn -/

section Aim

variable {g g' : Globals} {α : Type}

lemma aimed_edit (p : Cmd α) : (edit p).Along exec Aimed g := along_edit (fun _ _ _ => trivial) p

lemma aimed_look {f : Ed → Proc α} (h : (f g.toEd).Along exec Aimed g) :
    ((edit look).bind f).Along exec Aimed g := (along_look (fun _ => trivial) f).mpr h

/-- Neither draws the screen nor has a new buffer. -/
def Unseen : ∀ β : Type, Sys β → Prop
  | _, .refresh | _, .top | _, .fresh_buffer _ _ => False
  | _, _ => True

lemma aimed_of_unseen {p : Proc α} (h : p.All (Parts Unseen)) : p.Along exec Aimed g := by
  refine h.along ?_ g
  intro β o g ho
  cases o with
  | inl o => trivial
  | inr o => cases o <;> trivial

lemma aimed_refresh (h : Inside g) : refresh.Along exec Aimed g := (along_sys _).mpr h

/-- Only the text has changed, and has not become shorter. -/
lemma Inside.grow (h : Inside g) (hdot : g'.dot = g.dot) (hend : g.end_ ≤ g'.end_) : Inside g' :=
  ⟨by rw [hdot]; exact h.1, by rw [hdot]; exact h.2.trans hend⟩

lemma Inside.same (h : Inside g) (hdot : g'.dot = g.dot) (hend : g'.end_ = g.end_) : Inside g' :=
  h.grow hdot hend.ge

lemma Inside.insert (h : Inside g) (p : ℤ) (s : List Char) : Inside (g.insert p s) := by
  refine h.grow (g.dot_text_hole_make p s.length) ?_
  have := g.end_text_hole_make p s.length
  show g.end_ ≤ (g.text_hole_make p s.length).end_
  omega

namespace Buffer

variable {b : Buffer} {p q : ℤ} {c mate : Char}

lemma pair_from_forward {n : ℕ} {level : ℤ} (h : b.pair_from c mate .forward n p level = some q) :
    p ≤ q ∧ q < p + n := by
  induction n generalizing p level with
  | zero => cases h
  | succ n ih =>
    simp only [pair_from] at h
    split_ifs at h
    all_goals first
      | (obtain rfl := Option.some.inj h; omega)
      | (have hih := ih h; simp only [Dir.inc] at hih; omega)

lemma pair_from_back {n : ℕ} {level : ℤ} (h : b.pair_from c mate .back n p level = some q) :
    p - n < q ∧ q ≤ p := by
  induction n generalizing p level with
  | zero => cases h
  | succ n ih =>
    simp only [pair_from] at h
    split_ifs at h
    all_goals first
      | (obtain rfl := Option.some.inj h; omega)
      | (have hih := ih h; simp only [Dir.inc] at hih; omega)

/-- A bracket that is found is in the text. -/
lemma find_pair_inside (h : b.find_pair p c = some q) : 0 ≤ q ∧ q < b.end_ := by
  rw [find_pair] at h
  cases hd : (match_of c).2 with
  | forward =>
    simp only [hd] at h
    have := pair_from_forward h
    split_ifs at this <;> omega
  | back =>
    simp only [hd] at h
    have := pair_from_back h
    split_ifs at this <;> omega

end Buffer

/-- Looks at the text or makes it longer. -/
def Grows : ∀ β : Type, Edit β → Prop
  | _, .look | _, .stupid_insert _ _ _ => True
  | _, _ => False

lemma exec_grows {β : Type} {o : Edit β} {b : β} (ho : Grows β o)
    (h : Edit.exec β o g = .done b g') : g'.dot = g.dot ∧ g.end_ ≤ g'.end_ := by
  cases o with
  | look =>
    cases h
    exact ⟨rfl, le_refl _⟩
  | stupid_insert p c held =>
    have hend := g.end_text_hole_make p ([c].length : ℕ)
    simp only [Edit.exec] at h
    split at h <;> cases h
    refine ⟨g.dot_text_hole_make p _, ?_⟩
    show g.end_ ≤ (g.text_hole_make p ([c].length : ℕ)).end_
    omega
  | _ => exact ho.elim

lemma grows_indent (n : ℕ) (q p : ℤ) : (indent n q p).All Grows := by
  induction n generalizing q p with
  | zero => trivial
  | succ n ih =>
    rw [indent]
    refine Program.All.bind (p := look) ⟨trivial, fun _ => trivial⟩ fun s => ?_
    split
    · exact Program.All.bind ⟨trivial, fun _ => trivial⟩ fun p' => ih _ _
    · trivial

/-- A character that does not erase another one makes the text longer. -/
lemma run_plain_insert {p p' : ℤ} {c : Char} (he : g.erases c = false)
    (hr : (plain_insert p c).run Edit.exec g = .done p' g') :
    g'.dot = g.dot ∧ g.end_ < g'.end_ := by
  rw [plain_insert, Program.bind_eq, run_look_bind, if_neg (by simp [he])] at hr
  dsimp only at hr
  generalize (if c = '\r' then '\n' else c) = c at hr
  obtain ⟨p₁, g₁, hr₁, hr⟩ := (Program.run_bind_eq_done _).mp hr
  have h₁ : g₁.dot = g.dot ∧ g₁.end_ = g.end_ + 1 := by
    simp only [stupid_insert, Program.run_perform, Edit.exec] at hr₁
    split at hr₁ <;> cases hr₁
    exact ⟨g.dot_text_hole_make p _, g.end_text_hole_make p 1⟩
  have hrest := Program.run_keeps (G := fun β o _ => Grows β o)
    (R := fun g g' : Globals => g'.dot = g.dot ∧ g.end_ ≤ g'.end_)
    (fun _ => ⟨rfl, le_refl _⟩) (fun _ _ _ h h' => ⟨h'.1.trans h.1, h.2.trans h'.2⟩)
    (fun _ _ _ _ _ ho hx => exec_grows ho hx) (p := do
      let s ← look
      if s.autoindent ∧ c = '\n' then indent (p₁ - s.prev_line p₁).toNat (s.prev_line p₁) p₁
      else return p₁) ?_ hr
  · exact ⟨hrest.1.trans h₁.1, by have := hrest.2; omega⟩
  · refine Program.All.along (P := Grows) ?_ (fun _ _ _ h => h) _
    refine Program.All.bind (p := look) ⟨trivial, fun _ => trivial⟩ fun s => ?_
    split
    · exact grows_indent _ _ _
    · trivial

lemma Inside.plain_insert (h : Inside g) {p p' : ℤ} {c : Char} (he : g.erases c = false)
    (hr : (plain_insert p c).run Edit.exec g = .done p' g') : Inside g' := by
  obtain ⟨hdot, hend⟩ := run_plain_insert he hr
  exact h.grow hdot hend.le

lemma aimed_showmatching (h : Inside g) (p : ℤ) : (showmatching p).Along exec Aimed g := by
  rw [showmatching]
  refine aimed_look ?_
  split
  · exact aimed_edit _
  · rename_i q hq
    have hin := Buffer.find_pair_inside hq
    refine (aimed_edit _).bind fun _ g₁ hr₁ => ?_
    have h₁ : Inside g₁ := by
      cases hr₁
      exact ⟨hin.1, hin.2.le⟩
    refine (aimed_refresh h₁).bind fun _ g₂ hr₂ => ?_
    refine (aimed_edit _).bind fun _ g₃ hr₃ => ?_
    refine aimed_refresh ?_
    have hbuf : g₂.toBuffer = g.toBuffer := by
      cases hr₂
      cases hr₁
      exact (Globals.refresh_view _).1
    cases hr₃
    exact ⟨h.1, by show g.dot ≤ g₂.end_; rw [hbuf]; exact h.2⟩

lemma aimed_char_insert (h : Inside g) (p : ℤ) (c : Char) :
    (char_insert p c).Along exec Aimed g := by
  rw [char_insert]
  split_ifs
  · refine (aimed_edit _).bind fun p' g₁ hr₁ => ?_
    have h₁ : Inside g₁ := by
      simp only [run_edit, stupid_insert, Program.run_perform, Edit.exec, Bool.false_eq_true,
        false_and, if_false] at hr₁
      cases hr₁
      exact h.insert p ['^']
    refine (aimed_refresh h₁).bind fun _ _ _ => ?_
    exact aimed_of_unseen (parts_then fun c' => parts_then fun _ => parts_pure p')
  · refine aimed_of_unseen (parts_after trivial fun _ => parts_then fun _ => parts_then fun _ => ?_)
    exact parts_then fun s => parts_pure _
  · refine aimed_look ?_
    refine (aimed_edit _).bind fun p' g₁ hr₁ => ?_
    dsimp only
    split
    · rename_i hshow
      rw [run_edit] at hr₁
      have h₁ := h.plain_insert (by simpa using hshow.1) hr₁
      exact (aimed_showmatching h₁ p).bind fun _ _ _ => trivial
    · trivial

lemma aimed_insert_key (h : Inside g) (c : Char) : (insert_key c).Along exec Aimed g := by
  rw [insert_key]
  split_ifs
  · exact aimed_of_unseen (parts_sys trivial)
  · refine aimed_look ?_
    exact (aimed_char_insert h g.dot c).bind fun _ _ _ => aimed_edit _
  · trivial

/-- One character under the cursor is deleted, and the cursor put where that leaves it. -/
lemma Inside.delete_here (h : Inside g) {dot : ℤ}
    (hr : (yank_delete g.dot g.dot false true).run Edit.exec g = .done dot g') :
    Inside { g' with dot := dot } := by
  have hwithin : g.within_line g.dot g.dot = g.dot := by simp [Ed.within_line, Buffer.to_newline]
  simp only [yank_delete, look, view, text_hole_delete, Program.bind_eq, Program.perform_bind,
    Program.run_call, Edit.exec, Outcome.andThen_done, min_self, max_self, hwithin,
    Bool.false_eq_true, if_false, if_true] at hr
  split at hr
  · cases hr
    exact h
  · simp only [Program.run_call, Program.run_perform, Edit.exec, Outcome.andThen_done] at hr
    cases hr
    exact Buffer.text_hole_delete_inside le_rfl h.1 h.2

lemma aimed_replace_key (h : Inside g) (c : Char) : (replace_key c).Along exec Aimed g := by
  have hinsert : ∀ g₁ : Globals, Inside g₁ → (do
      let s ← edit look
      let dot ← char_insert s.dot c
      edit (move fun _ => dot) : Proc Unit).Along exec Aimed g₁ := by
    intro g₁ h₁
    refine aimed_look ?_
    exact (aimed_char_insert h₁ g₁.dot c).bind fun _ _ _ => aimed_edit _
  rw [replace_key]
  refine aimed_look ?_
  split_ifs
  · exact aimed_of_unseen (parts_sys trivial)
  · refine Program.Along.bind ((along_sys _).mpr trivial) fun _ g₁ hr₁ => ?_
    cases hr₁
    have h₁ : Inside { g with cmd_mode := .insert } := h.same rfl rfl
    exact aimed_insert_key h₁ c
  · refine (aimed_edit _).bind fun dot g₁ hr₁ => ?_
    refine (aimed_edit _).bind fun _ g₂ hr₂ => ?_
    rw [run_edit] at hr₁
    cases hr₂
    exact hinsert _ (h.delete_here hr₁)
  · exact hinsert g h
  · trivial

/-! ### Keys and colon commands -/

/-- Reads the state, and changes neither the text nor the cursor. -/
def Idle : ∀ β : Type, Op β → Prop
  | _, .inl .look | _, .inr (.mark_line _) => True
  | _, .inl (.view f) => ∀ s, (f s).dot = s.dot
  | _, _ => False

lemma exec_idle {β : Type} {o : Op β} {b : β} (ho : Idle β o) (h : exec β o g = .done b g') :
    g'.toBuffer = g.toBuffer ∧ g'.dot = g.dot := by
  cases o with
  | inl o =>
    cases o with
    | look =>
      cases h
      exact ⟨rfl, rfl⟩
    | view f =>
      cases h
      exact ⟨rfl, ho g.toEd⟩
    | _ => exact ho.elim
  | inr o =>
    cases o with
    | mark_line i =>
      simp only [exec_inr, Sys.exec] at h
      repeat' split at h
      all_goals cases h
      all_goals exact ⟨rfl, rfl⟩
    | _ => exact ho.elim

lemma idle_look {f : Ed → Proc α} (hf : ∀ s, (f s).All Idle) : (edit look >>= f).All Idle :=
  Program.All.bind ⟨trivial, fun _ => trivial⟩ hf

lemma idle_get_one_address (p : List Char) : (get_one_address p).All Idle := by
  rw [get_one_address]
  refine idle_look fun s => ?_
  repeat' split
  all_goals first
    | trivial
    | exact ⟨trivial, fun s => ⟨fun _ => rfl, fun _ => trivial⟩⟩
    | (dsimp only; split)
  all_goals first
    | trivial
    | exact Program.All.bind (p := sys (.mark_line _)) ⟨trivial, fun _ => trivial⟩ fun _ => trivial

lemma idle_get_address (p : List Char) : (get_address p).All Idle := by
  rw [get_address]
  refine idle_look fun s => ?_
  split
  · trivial
  · refine (idle_get_one_address _).bind fun r => ?_
    dsimp only
    split
    · exact (idle_get_one_address _).bind fun r' => trivial
    · trivial

/-- Reading the addresses of a command changes neither the text nor the cursor. -/
lemma run_get_address {p : List Char} {r : ℤ × ℤ × List Char}
    (hr : (get_address p).run exec g = .done r g') :
    g'.toBuffer = g.toBuffer ∧ g'.dot = g.dot := by
  refine Program.run_keeps (G := fun β o _ => Idle β o)
    (R := fun g g' => g'.toBuffer = g.toBuffer ∧ g'.dot = g.dot) (fun _ => ⟨rfl, rfl⟩)
    ?_ (fun _ _ _ _ _ ho hx => exec_idle ho hx) ?_ hr
  · intro _ _ _ h h'
    exact ⟨h'.1.trans h.1, h'.2.trans h.2⟩
  · exact (idle_get_address p).along (fun _ _ _ ho => ho) g

lemma aimed_Hit_Return (h : Inside g) : Hit_Return.Along exec Aimed g := by
  rw [Hit_Return]
  refine Program.Along.bind ((along_sys _).mpr trivial) fun _ g₁ hr₁ => aimed_refresh ?_
  obtain ⟨overrun, q, rfl⟩ := hit_return_done ((run_sys _).symm.trans hr₁)
  exact h.same rfl rfl

lemma aimed_init_text_buffer (fn : Option (List Char)) (lost : Option Bool) :
    (init_text_buffer fn lost).Along exec Aimed g := by
  rw [init_text_buffer]
  refine Program.Along.bind ((along_sys _).mpr trivial) fun size g₁ hr₁ => ?_
  refine Program.Along.bind ((along_sys _).mpr ?_) fun _ g₂ _ => aimed_of_unseen ?_
  · simp only [run_sys, Sys.exec] at hr₁
    show -1 ≤ size
    split at hr₁
    · cases hr₁
      decide
    · cases hr₁
      decide
    · cases hr₁
      cases g.world.file_sizes.headD none with
      | none => decide
      | some n =>
        show -1 ≤ (n : ℤ)
        omega
  · have hloaded : ∀ rc : ℤ, (do sys .loaded; return rc : Proc ℤ).All (Parts Unseen) :=
      fun rc => parts_after trivial fun _ => parts_pure rc
    refine parts_then fun _ => ?_
    dsimp only
    split
    · exact parts_then fun _ => hloaded 0
    · exact parts_after trivial fun rc => hloaded rc

lemma aimed_line_exec (h : Inside g) (l : Line) : l.exec.Along exec Aimed g := by
  by_cases hwaits : (ColonCmd.of l.cmd).Waits
  · have hraw : (do
        sys .rawmode
        Hit_Return
        return true : Proc Bool).Along exec Aimed g := by
      refine Program.Along.bind ((along_sys _).mpr trivial) fun _ g₁ hr₁ => ?_
      cases hr₁
      have h₁ : Inside { g with
          erase_char := g.world.erase.headD g.erase_char
          world := { g.world with erase := g.world.erase.tail } } := h.same rfl rfl
      exact (aimed_Hit_Return h₁).bind fun _ _ _ => trivial
    rw [Line.exec]
    obtain hl | hl | hl := hwaits
    · rw [hl]
      exact hraw
    · rw [hl]
      exact hraw
    · rw [hl]
      exact (aimed_Hit_Return h).bind fun _ _ _ => trivial
  · by_cases hedit : ColonCmd.of l.cmd = .edit
    · rw [Line.exec, hedit]
      refine Program.Along.bind ?_ fun _ _ _ => trivial
      rw [colon_edit]
      refine aimed_look ?_
      split_ifs
      · exact aimed_edit _
      · exact aimed_edit _
      · refine (aimed_init_text_buffer _ _).bind fun rc g₁ _ => aimed_of_unseen ?_
        split_ifs
        · refine parts_then fun _ => parts_then fun t => ?_
          exact parts_after trivial fun size => parts_edit _
        · exact parts_pure ()
    · refine aimed_of_unseen (parts_line_exec l (fun h => absurd h hedit) ?_ ?_ ?_)
      · intro _ β o ho
        cases o <;> trivial
      · exact fun _ => ⟨fun _ _ _ => trivial, fun _ _ => trivial, trivial⟩
      · exact fun h => absurd h hwaits

lemma aimed_colon (h : Inside g) (buf : List Char) : (colon buf).Along exec Aimed g := by
  rw [colon]
  by_cases hbuf : buf = []
  · rw [if_pos hbuf]
    exact aimed_edit _
  · rw [if_neg hbuf]
    have haddr : ∀ p, (get_address p).Along exec Aimed g := fun p =>
      aimed_of_unseen (parts_get_address (fun _ => trivial) p)
    refine (haddr _).bind fun r g₁ hr₁ => ?_
    obtain ⟨hb, hdot⟩ := run_get_address hr₁
    have h₁ : Inside g₁ := h.same hdot (by rw [hb])
    refine (aimed_line_exec h₁ _).bind fun b g₂ _ => ?_
    split_ifs
    · exact aimed_edit _
    · trivial

lemma aimed_switch (h : Inside g) (c : Char) : (switch c).Along exec Aimed g := by
  by_cases hcolon : key_of c = .colon
  · rw [switch, hcolon]
    refine (aimed_edit _).bind fun p g₁ hr₁ => ?_
    refine (aimed_colon ?_ p).bind fun _ _ _ => (aimed_edit _).bind fun _ _ _ => trivial
    simp only [run_edit, Program.run_perform, Edit.exec, Edit.typed] at hr₁
    split at hr₁ <;> cases hr₁
    exact h.same rfl rfl
  by_cases hz : key_of c = .z
  · rw [switch, hz]
    refine Program.Along.bind ?_ fun _ _ _ => trivial
    rw [place_line]
    refine (aimed_edit _).bind fun c1 g₁ hr₁ => aimed_look ?_
    refine Program.Along.bind ((along_sys _).mpr ?_) fun _ _ _ => aimed_edit _
    simp only [run_edit, get_one_char, Program.run_perform, Edit.exec, Edit.typed] at hr₁
    split at hr₁ <;> cases hr₁
    exact h.same rfl rfl
  by_cases hredraw : key_of c = .redraw
  · rw [switch, hredraw]
    refine Program.Along.bind ?_ fun _ _ _ => trivial
    refine Program.Along.bind ((along_sys _).mpr trivial) fun _ g₁ hr₁ => aimed_refresh ?_
    cases hr₁
    exact h.same rfl rfl
  · refine aimed_of_unseen (parts_switch (fun _ => trivial) c hcolon ?_ (fun h => absurd h hz)
      (fun h => absurd h hredraw) (fun _ => trivial)
      fun _ => ⟨fun _ => trivial, fun _ => trivial⟩)
    intro _ β o ho
    cases o <;> trivial

lemma aimed_do_cmd (h : Inside g) (c : Char) : (do_cmd c).Along exec Aimed g := by
  rw [do_cmd]
  refine aimed_look ?_
  split_ifs
  · refine (aimed_switch h c).bind fun k g₁ _ => ?_
    cases k with
    | none => trivial
    | some c => exact aimed_edit _
  · exact (aimed_replace_key h c).bind fun _ _ _ => aimed_edit _
  · exact (aimed_insert_key h c).bind fun _ _ _ => aimed_edit _

lemma save_line_view {u : Unit} (hr : save_line.run Edit.exec g = .done u g') :
    g' = { g with toView := g'.toView } ∧ g'.dot = g.dot ∧ g'.cmdcnt = g.cmdcnt := by
  cases hr
  refine ⟨rfl, ?_, ?_⟩
  all_goals
    dsimp only
    split <;> rfl

/-- What a turn does before it executes a command. -/
def before_cmd : Proc Char := do
  Vi.refresh
  let c ← edit get_one_char
  edit (status_line "")
  edit save_line
  sys (.remember c)
  return c

lemma turn_eq : turn = before_cmd.bind do_cmd := rfl

/-- The first steps of a turn read a key and change nothing that a command works on. -/
lemma run_before_cmd {c : Char} (hr : before_cmd.run exec g = .done c g') :
    g'.toBuffer = g.toBuffer ∧ g'.dot = g.dot ∧ g'.cmdcnt = g.cmdcnt := by
  rw [before_cmd] at hr
  obtain ⟨_, g₁, hr₁, hr⟩ := (Program.run_bind_eq_done exec).mp hr
  obtain ⟨c, g₂, hr₂, hr⟩ := (Program.run_bind_eq_done exec).mp hr
  obtain ⟨_, g₃, hr₃, hr⟩ := (Program.run_bind_eq_done exec).mp hr
  obtain ⟨_, g₄, hr₄, hr⟩ := (Program.run_bind_eq_done exec).mp hr
  obtain ⟨_, g₅, hr₅, hr⟩ := (Program.run_bind_eq_done exec).mp hr
  obtain ⟨hb, hv, -, -, -⟩ := g.refresh_view
  have h₁ : g₁ = g.refresh := by
    cases hr₁
    rfl
  have h₂ : g₂.toEd = g₁.toEd := by
    simp only [run_edit, get_one_char, Program.run_perform, Edit.exec, Edit.typed] at hr₂
    split at hr₂ <;> cases hr₂
    rfl
  have h₃ : g₃.toEd = g₂.toEd := by
    cases hr₃
    rfl
  obtain ⟨h₄, hdot, hcnt⟩ := save_line_view ((run_edit _).symm.trans hr₄)
  have h₅ : g₅.toEd = g₄.toEd := by
    cases hr₅
    split <;> rfl
  cases hr
  refine ⟨?_, ?_, ?_⟩
  · rw [h₅, h₄, h₃, h₂, h₁, hb]
  · rw [h₅, hdot, h₃, h₂, h₁, hv]
  · rw [h₅, hcnt, h₃, h₂, h₁, hv]

lemma aimed_turn (h : Inside g) : turn.Along exec Aimed g := by
  rw [turn_eq]
  have hbefore : before_cmd.Along exec Aimed g := by
    refine (aimed_refresh h).bind fun _ _ _ => aimed_of_unseen ?_
    exact parts_then fun _ => parts_then fun _ => parts_then fun _ => parts_after trivial fun _ =>
      parts_pure _
  refine hbefore.bind fun c g₁ hr₁ => aimed_do_cmd ?_ c
  obtain ⟨hb, hdot, -⟩ := run_before_cmd hr₁
  exact h.same hdot (by rw [hb])

/-! ## The end of a command -/

/-- The cursor is at a position of the text or just behind it, and the text is not empty. -/
structure Settled (g : Globals) : Prop where
  inside : Inside g
  nonempty : 0 < g.end_

lemma run_move {f : Ed → ℤ} {u : Unit} (hr : (move f).run Edit.exec g = .done u g') :
    g' = { g with dot := f g.toEd } := by
  cases hr
  rfl

lemma settled_off_newline (h : Settled g)
    (hr : off_newline.run Edit.exec g = .done () g') : Settled g' := by
  rw [off_newline, Program.bind_eq, run_look_bind] at hr
  split at hr
  · rename_i hnl
    have hbeg := Buffer.begin_line_nonneg (b := g.toBuffer) h.inside.1
    have hlt := hnl.2.1
    rw [run_move hr]
    refine ⟨⟨?_, ?_⟩, h.nonempty⟩
    · show 0 ≤ g.dot - 1
      omega
    · show g.dot - 1 ≤ g.end_
      have := h.inside.2
      omega
  · cases hr
    exact h

/-- Bringing the cursor back may draw the screen, but leaves the text. -/
lemma run_bound_dot {u : Unit} (hpos : 0 < g.end_)
    (hr : bound_dot.run Edit.exec g = .done u g') : Settled g' := by
  have herror : ∀ {g g' : Globals} {u : Unit},
      indicate_error.run Edit.exec g = .done u g' → g'.toBuffer = g.toBuffer := by
    intro g g' u h
    cases h
    split
    · exact (Globals.refresh_view _).1.trans (Globals.refresh_view _).1
    · rfl
  have hlast : ∀ {g : Globals} {u : Unit}, 0 < g.end_ →
      (move fun s => s.bound_dot s.dot).run Edit.exec g = .done u g' → Settled g' := by
    intro g u hg h
    rw [run_move h]
    refine ⟨⟨?_, ?_⟩, hg⟩
    · show 0 ≤ g.bound_dot g.dot
      simp only [Buffer.bound_dot]
      split_ifs <;> omega
    · show g.bound_dot g.dot ≤ g.end_
      simp only [Buffer.bound_dot]
      split_ifs <;> omega
  rw [bound_dot, Program.bind_eq, run_look_bind] at hr
  simp only [Program.bind_eq] at hr
  split_ifs at hr
  · obtain ⟨_, g₁, hr₁, hr⟩ := (Program.run_bind_eq_done _).mp hr
    obtain ⟨_, g₂, hr₂, hr⟩ := (Program.run_bind_eq_done _).mp hr
    exact hlast (by rw [herror hr₂, herror hr₁]; exact hpos) hr
  · obtain ⟨_, g₁, hr₁, hr⟩ := (Program.run_bind_eq_done _).mp hr
    exact hlast (by rw [herror hr₁]; exact hpos) hr
  · obtain ⟨_, g₁, hr₁, hr⟩ := (Program.run_bind_eq_done _).mp hr
    exact hlast (by rw [herror hr₁]; exact hpos) hr
  · exact hlast hpos hr

lemma settled_settle {c : Char} (hpos : 0 < g.end_)
    (hr : (settle c).run Edit.exec g = .done () g') : Settled g' := by
  have hlast : ∀ {g : Globals}, Settled g → (do
      Program.perform (.check_context c)
      if ¬ isdigit c then count fun _ => 0
      off_newline : Cmd Unit).run Edit.exec g = .done () g' → Settled g' := by
    intro g h hr
    simp only [Program.bind_eq] at hr
    obtain ⟨_, g₁, hr₁, hr⟩ := (Program.run_bind_eq_done _).mp hr
    have h₁ : Settled g₁ := by
      cases hr₁
      exact ⟨⟨h.inside.1, h.inside.2⟩, h.nonempty⟩
    split_ifs at hr
    · exact settled_off_newline h₁ hr
    · obtain ⟨_, g₂, hr₂, hr⟩ := (Program.run_bind_eq_done _).mp hr
      refine settled_off_newline ?_ hr
      cases hr₂
      exact ⟨⟨h₁.inside.1, h₁.inside.2⟩, h₁.nonempty⟩
  rw [settle, Program.bind_eq, run_look_bind] at hr
  dsimp only at hr
  by_cases heq : g.dot ≠ g.end_
  · rw [if_pos heq] at hr
    obtain ⟨_, g₁, hr₁, hr⟩ := (Program.run_bind_eq_done _).mp hr
    exact hlast (run_bound_dot hpos hr₁) hr
  · rw [if_neg heq] at hr
    refine hlast ⟨⟨?_, ?_⟩, hpos⟩ hr
    · omega
    · omega

lemma settled_dc1 {c : Char} (hg : Framed g) (hr : (dc1 c).run Edit.exec g = .done () g') :
    Settled g' := by
  rw [dc1, Program.bind_eq, run_look_bind] at hr
  dsimp only at hr
  by_cases hend : g.end_ = 0
  · rw [if_pos hend] at hr
    obtain ⟨_, g₁, hr₁, hr⟩ := (Program.run_bind_eq_done _).mp hr
    obtain ⟨_, g₂, hr₂, hr⟩ := (Program.run_bind_eq_done _).mp hr
    refine settled_settle ?_ hr
    rw [run_move hr₂]
    have herase : g.erases '\n' = false := by
      have := hg.erase
      simp [Ed.erases, Ne.symm this]
    have := (run_plain_insert herase hr₁).2
    show 0 < g₁.end_
    omega
  · rw [if_neg hend] at hr
    have := hg.end_nonneg
    exact settled_settle (by omega) hr

/-! ## Commands that do not come to the end of `do_cmd` -/

lemma run_bind_pure {p : Cmd α} {β : Type} {b b' : β}
    (hr : (p.bind fun _ => pure b).run Edit.exec g = .done b' g') : b' = b := by
  obtain ⟨a, g₁, -, hr⟩ := (Program.run_bind_eq_done _).mp hr
  cases hr
  rfl

/-- Only a count that is too large ends a command at once. -/
lemma run_move_exec {m : Move} {c : Char} (hr : (m.exec c).run Edit.exec g = .done false g') :
    g'.dot = g.dot ∧ g'.end_ = g.end_ ∧ g.cmdcnt ≠ 0 := by
  rw [Move.exec, Program.bind_eq, run_look_bind] at hr
  cases m with
  | digit =>
    simp only [digit, Program.bind_eq, run_look_bind] at hr
    split_ifs at hr with hzero hlarge
    · exact absurd (run_bind_pure hr) (by decide)
    · obtain ⟨_, g₁, hr₁, hr⟩ := (Program.run_bind_eq_done _).mp hr
      obtain ⟨_, g₂, hr₂, hr⟩ := (Program.run_bind_eq_done _).mp hr
      cases hr₁
      cases hr₂
      cases hr
      exact ⟨rfl, rfl, by omega⟩
    · exact absurd (run_bind_pure hr) (by decide)
  | status => cases hr
  | find =>
    obtain ⟨c1, g₁, -, hr⟩ := (Program.run_bind_eq_done _).mp hr
    obtain ⟨_, g₂, -, hr⟩ := (Program.run_bind_eq_done _).mp hr
    exact absurd (run_bind_pure hr) (by decide)
  | _ => exact absurd (run_bind_pure hr) (by decide)

/-- Every other command comes to the end of `do_cmd`. -/
lemma yields_switch {c : Char} (hc : ∀ m, key_of c ≠ .move m) :
    (switch c).Yields (· ≠ none) := by
  have hsome : ∀ c : Char, (pure (some c) : Proc (Option Char)).Yields (· ≠ none) :=
    fun _ => Option.some_ne_none _
  rw [switch]
  cases hk : key_of c with
  | move m => exact absurd hk (hc m)
  | unknown => exact .bind _ fun _ => .bind _ fun _ => hsome _
  | nul | function_key => exact hsome _
  | redraw | dot | put | undo_line | shift | insert | replace_mode | exit | replace | tilde | z
  | delete_char => exact .bind _ fun _ => hsome _
  | append | insert_begin | open_above | open_below | change_char | join =>
    exact .bind _ fun _ => .bind _ fun _ => hsome _
  | colon | append_end => exact .bind _ fun _ => .bind _ fun _ => .bind _ fun _ => hsome _
  | esc =>
    refine .bind _ fun s => ?_
    dsimp only
    split
    · exact .bind _ fun _ => .bind _ fun _ => .bind _ fun _ => hsome _
    · exact .bind _ fun _ => .bind _ fun _ => hsome _
  | rest_of_line =>
    refine .bind _ fun _ => ?_
    dsimp only
    split <;> exact .bind _ fun _ => hsome _
  | operator =>
    refine .bind _ fun r => ?_
    dsimp only
    split
    · exact .bind _ fun _ => hsome _
    · exact hsome _

/-! ## Turns -/

/-- What holds before a key is read: until the first command there may be no text. -/
structure Ready (g : Globals) : Prop where
  framed : Framed g
  inside : Inside g
  counted : 0 < g.end_ ∨ g.cmdcnt = 0

/-- The pointers are as `crash_test` wants them, and there is a text. -/
structure Valid (g : Globals) : Prop where
  dot_nonneg : 0 ≤ g.dot
  dot_le : g.dot ≤ g.end_
  end_le : g.end_ ≤ g.text_size
  nonempty : 0 < g.end_
  begin_nonneg : 0 ≤ g.screenbegin
  begin_le : g.screenbegin ≤ g.end_ - 1

lemma run_framed {p : Proc α} {a : α} (hg : Framed g) (hp : p.Along exec Proper g)
    (ha : p.Along exec Aimed g) (hr : p.run exec g = .done a g') : Framed g' := by
  have h := Program.run_ends (fun _ o g hg ho => exec_framed o g hg ho) hg (Program.along_and hp ha)
  rw [hr] at h
  exact h

lemma settled_do_cmd {c : Char} (hg : Ready g) (hp : (do_cmd c).Along exec Proper g)
    (hr : (do_cmd c).run exec g = .done () g') : Settled g' := by
  rw [do_cmd] at hp hr
  obtain ⟨s, g₀, hr₀, hr⟩ := (Program.run_bind_eq_done _).mp hr
  have hp₀ := hp.rest hr₀
  cases hr₀
  split_ifs at hr hp₀
  · obtain ⟨k, g₁, hr₁, hr⟩ := (Program.run_bind_eq_done _).mp hr
    have hp₁ := hp₀.first
    have hg₁ := run_framed hg.framed hp₁ (aimed_switch hg.inside c) hr₁
    cases k with
    | some c => exact settled_dc1 hg₁ ((run_edit _).symm.trans hr)
    | none =>
      cases hr
      by_cases hc : ∃ m, key_of c = .move m
      · obtain ⟨m, hm⟩ := hc
        rw [switch, hm] at hr₁
        obtain ⟨on, g₂, hr₂, hr₁⟩ := (Program.run_bind_eq_done _).mp hr₁
        cases on with
        | true => cases hr₁
        | false =>
          cases hr₁
          obtain ⟨hdot, hend, hcnt⟩ := run_move_exec ((run_edit _).symm.trans hr₂)
          have hpos := hg.counted.resolve_right hcnt
          exact ⟨hg.inside.same hdot hend, by rw [hend]; exact hpos⟩
      · exact absurd rfl ((yields_switch (by simpa using hc)).run hr₁)
  · obtain ⟨_, g₁, hr₁, hr⟩ := (Program.run_bind_eq_done _).mp hr
    have hg₁ := run_framed hg.framed hp₀.first (aimed_replace_key hg.inside c) hr₁
    exact settled_dc1 hg₁ ((run_edit _).symm.trans hr)
  · obtain ⟨_, g₁, hr₁, hr⟩ := (Program.run_bind_eq_done _).mp hr
    have hg₁ := run_framed hg.framed hp₀.first (aimed_insert_key hg.inside c) hr₁
    exact settled_dc1 hg₁ ((run_edit _).symm.trans hr)

theorem valid_turn (hg : Ready g) (hp : turn.Along exec Proper g)
    (hr : turn.run exec g = .done () g') : Valid g' := by
  have hframed := run_framed hg.framed hp (aimed_turn hg.inside) hr
  rw [turn_eq] at hp hr
  obtain ⟨c, g₁, hr₁, hr⟩ := (Program.run_bind_eq_done _).mp hr
  have hbefore : before_cmd.Along exec Aimed g := (turn_eq ▸ aimed_turn hg.inside).first
  have hg₁ := run_framed hg.framed hp.first hbefore hr₁
  obtain ⟨hb, hdot, hcnt⟩ := run_before_cmd hr₁
  have hready : Ready g₁ := ⟨hg₁, hg.inside.same hdot (by rw [hb]), by rw [hb, hcnt]; exact hg.counted⟩
  have hsettled := settled_do_cmd hready (hp.rest hr₁) hr
  have hbegin := hframed.begin_le
  have hpos := hsettled.nonempty
  exact ⟨hsettled.inside.1, hsettled.inside.2, hframed.end_le, hpos, hframed.begin_nonneg, by omega⟩

lemma Valid.ready (h : Valid g) (hg : Framed g) : Ready g := ⟨hg, ⟨h.dot_nonneg, h.dot_le⟩, .inl h.nonempty⟩

lemma dot_file_insert (fn : List Char) (p : ℤ) (ro : Bool) :
    (g.file_insert fn p ro).2.dot = g.dot := by
  have hread : ∀ (g : Globals) (size : ℕ) (found : Found),
      (g.read_in fn p size found).2.dot = g.dot := by
    intro g size found
    simp only [Globals.read_in]
    cases found.data with
    | none => exact g.dot_text_hole_make p size
    | some data =>
      dsimp only
      split <;> exact g.dot_text_hole_make p size
  have hfound : ∀ (g : Globals) (found : Found), (g.insert_found fn p found).2.dot = g.dot := by
    intro g found
    rw [Globals.insert_found]
    cases found.st_size with
    | none => rfl
    | some size =>
      dsimp only
      split_ifs
      all_goals first | rfl | exact hread g size found
  rw [Globals.file_insert]
  dsimp only
  split <;> exact hfound _ _

lemma run_init_text_buffer {fn : Option (List Char)} {lost : Option Bool} {rc : ℤ}
    (herase : g.erase_char ≠ '\n') (hr : (init_text_buffer fn lost).run exec g = .done rc g') :
    g'.dot = 0 := by
  rw [init_text_buffer] at hr
  obtain ⟨size, g₁, hr₁, hr⟩ := (Program.run_bind_eq_done _).mp hr
  obtain ⟨_, g₂, hr₂, hr⟩ := (Program.run_bind_eq_done _).mp hr
  obtain ⟨_, g₃, hr₃, hr⟩ := (Program.run_bind_eq_done _).mp hr
  have h₁ : g₁.erase_char = g.erase_char := by
    simp only [run_sys, Sys.exec] at hr₁
    split at hr₁ <;> cases hr₁ <;> rfl
  have h₃ : g₃.dot = 0 ∧ g₃.erase_char = g₁.erase_char := by
    cases hr₂
    cases hr₃
    exact ⟨rfl, rfl⟩
  have hlast : ∀ {g₄ : Globals} {rc : ℤ},
      (do sys .loaded; return rc : Proc ℤ).run exec g₄ = .done rc g' → g'.dot = g₄.dot := by
    intro g₄ rc h
    cases h
    rfl
  dsimp only at hr
  split at hr
  · obtain ⟨_, g₄, hr₄, hr⟩ := (Program.run_bind_eq_done _).mp hr
    have herases : g₃.erases '\n' = false := by
      rw [← h₁, ← h₃.2] at herase
      simp [Ed.erases, Ne.symm herase]
    have hdot := (run_plain_insert herases ((run_edit _).symm.trans hr₄)).1
    cases hr
    exact hdot.trans h₃.1
  · obtain ⟨_, g₄, hr₄, hr⟩ := (Program.run_bind_eq_done _).mp hr
    have hdot : g₄.dot = g₃.dot := by
      cases hr₄
      exact dot_file_insert _ _ _
    cases hr
    exact hdot.trans h₃.1

lemma aimed_edit_file (fn : Option (List Char)) : (edit_file fn).Along exec Aimed g := by
  rw [edit_file]
  refine Program.Along.bind ((along_sys _).mpr trivial) fun _ _ _ => ?_
  refine Program.Along.bind ((along_sys _).mpr trivial) fun _ _ _ => ?_
  exact (aimed_init_text_buffer fn none).bind fun _ _ _ => (along_sys _).mpr trivial

lemma ready_edit_file {fn : Option (List Char)} (hg : Framed g)
    (hp : (edit_file fn).Along exec Proper g) (hr : (edit_file fn).run exec g = .done () g') :
    Ready g' := by
  have hframed := run_framed hg hp (aimed_edit_file fn) hr
  rw [edit_file] at hr hp
  obtain ⟨_, g₁, hr₁, hr⟩ := (Program.run_bind_eq_done _).mp hr
  obtain ⟨_, g₂, hr₂, hr⟩ := (Program.run_bind_eq_done _).mp hr
  obtain ⟨_, g₃, hr₃, hr⟩ := (Program.run_bind_eq_done _).mp hr
  have herase : g₂.erase_char ≠ '\n' := by
    have hraw := (along_sys _).mp hp.first
    cases hr₁
    cases hr₂
    exact hraw
  have hdot := run_init_text_buffer herase hr₃
  cases hr
  have h0 : 0 ≤ g₃.end_ := hframed.end_nonneg
  refine ⟨hframed, ⟨?_, ?_⟩, .inr rfl⟩
  · show 0 ≤ g₃.dot
    omega
  · show g₃.dot ≤ g₃.end_
    omega

end Aim

/-! ## Runs -/

variable {mem : ℤ → Char} {base : ℕ → ℤ} {keys : List Char} {world : World} {readonly : Bool}
variable {optind argc : ℤ}

/-- Files are edited, and keys are typed, to operations that are proper. -/
def Typed (g : Globals) (e : Event) : Prop :=
  (∀ line, e ≠ .command line) ∧ e.proc.Along exec Proper g

lemma reach_ready {s : Globals}
    (h : Reach step Typed (vi_main mem base keys world readonly optind argc) s) : Ready s := by
  refine h.induction_on ?_ ?_
  · exact ⟨⟨le_refl 0, le_refl 0, le_refl 0, le_max_right _ _, (by decide : NUL ≠ '\n')⟩,
      ⟨le_refl 0, le_refl 0⟩, .inr rfl⟩
  · intro g e g' hg hok hs
    rw [step] at hs
    split at hs
    · obtain ⟨a, hr⟩ := Outcome.state_eq_some.mp hs
      cases e with
      | file fn => exact ready_edit_file hg.framed hok.2 hr
      | command line => exact absurd rfl (hok.1 line)
      | key =>
        have hvalid := valid_turn hg hok.2 hr
        exact hvalid.ready (run_framed hg.framed hok.2 (aimed_turn hg.inside) hr)
    · cases hs

/-- In every run whose operations are proper, the pointers are valid after every command. -/
theorem pointers_valid {s s' : Globals}
    (h : Reach step Typed (vi_main mem base keys world readonly optind argc) s)
    (hp : turn.Along exec Proper s) (hs : step s .key = some s') : Valid s' := by
  rw [step] at hs
  split at hs
  · obtain ⟨a, hr⟩ := Outcome.state_eq_some.mp hs
    exact valid_turn (reach_ready h) hp hr
  · cases hs

/-- An editor for a file of two lines, with the keys to come, which are waiting whenever the screen
is to be drawn. -/
def typed_ahead (keys : List Char) : Globals :=
  vi_main (fun _ => NUL) (fun n => 100000 * n) keys
    { busy := [true, true, true, true]
      sizes := []
      erase := []
      file_sizes := [some 4]
      files := [⟨some 4, true, true, some ['a', '\n', 'b', '\n'], false, ""⟩]
      sinks := []
      behind := []
      fuel := 10 }
    false 0 1

theorem pointers_valid_dd : ∃ s s', step s .key = some s' ∧ s'.end_ = 2 ∧ Valid s' := by
  have hrun : ((step (typed_ahead ['d', 'd']) (.file (some ['f']))).bind fun s =>
      if (edit_file (some ['f'])).Along exec Proper (typed_ahead ['d', 'd']) ∧
          turn.Along exec Proper s then
        (step s .key).map fun s' => s'.end_
      else none) = some 2 := by decide +kernel
  obtain ⟨s, hs, hrun⟩ := Option.bind_eq_some_iff.mp hrun
  split at hrun
  · rename_i hproper
    obtain ⟨s', hs', hend⟩ := Option.map_eq_some_iff.mp hrun
    have hfile : Typed (typed_ahead ['d', 'd']) (.file (some ['f'])) := ⟨nofun, hproper.1⟩
    have hreach := Reach.step .init hfile hs
    exact ⟨s, s', hs', hend, pointers_valid hreach hproper.2 hs'⟩
  · cases hrun

/-- With the second line at the top of the screen, two keys delete it, and the screen begins at the
end of the text. -/
theorem screen_behind_text : ∃ s s', Reach step (fun _ e => ∀ line, e ≠ .command line)
      (typed_ahead ['\x05', 'd', 'd']) s ∧ step s .key = some s' ∧ ¬ Valid s' := by
  have hrun : ((step (typed_ahead ['\x05', 'd', 'd']) (.file (some ['f']))).bind fun s₁ =>
      (step s₁ .key).bind fun s => (step s .key).map fun s' => (s'.screenbegin, s'.end_)) =
        some (2, 2) := by decide +kernel
  obtain ⟨s₁, hs₁, hrun⟩ := Option.bind_eq_some_iff.mp hrun
  obtain ⟨s, hs, hrun⟩ := Option.bind_eq_some_iff.mp hrun
  obtain ⟨s', hs', hview⟩ := Option.map_eq_some_iff.mp hrun
  obtain ⟨hbegin, hend⟩ := Prod.mk.inj hview
  have hfile : ∀ line, Event.file (some ['f']) ≠ .command line := nofun
  have hkey : ∀ line, Event.key ≠ .command line := nofun
  refine ⟨s, s', .step (.step .init hfile hs₁) hkey hs, hs', fun hvalid => ?_⟩
  have := hvalid.begin_le
  omega

end EspLinux.Vi
