import EspLinux.Vi.Parts

/-!
# vi: unsaved text

The counter `file_modified` is zero only if the text is as it was last loaded or completely
written: every operation of the editor that changes the text counts.  The commands that end editing
or replace the text ask the counter first, all but the ones that write: `:wq` and its like end
editing as soon as the lines they were given are written, be it one line out of many.
-/

namespace EspLinux.Vi

open Lib

/-! ## What the operations do to the text -/

/-- From `g` to `g'` every change of the text has been counted, and none has been given up. -/
structure Edited (g g' : Globals) : Prop where
  saved : g'.saved = g.saved
  dropped : g'.dropped = g.dropped
  counted : g.file_modified ≤ g'.file_modified
  unchanged : g'.file_modified = g.file_modified → g'.content = g.content

namespace Edited

variable {g g' g'' : Globals}

lemma refl (g : Globals) : Edited g g := ⟨rfl, rfl, le_refl _, fun _ => rfl⟩

lemma trans (h : Edited g g') (h' : Edited g' g'') : Edited g g'' := by
  refine ⟨h'.saved.trans h.saved, h'.dropped.trans h.dropped, h.counted.trans h'.counted, ?_⟩
  intro he
  have hc := h.counted
  have hc' := h'.counted
  rw [h'.unchanged (by omega), h.unchanged (by omega)]

/-- Nothing of the text has changed. -/
lemma of_eq (hb : g'.toBuffer = g.toBuffer) (hs : g'.saved = g.saved)
    (hd : g'.dropped = g.dropped) : Edited g g' :=
  ⟨hs, hd, by rw [hb], fun _ => by rw [hb]⟩

/-- A change that is counted. -/
lemma of_lt (hs : g'.saved = g.saved) (hd : g'.dropped = g.dropped)
    (h : g.file_modified < g'.file_modified) : Edited g g' :=
  ⟨hs, hd, h.le, fun he => absurd he (by omega)⟩

end Edited

lemma edited_touch (g : Globals) : Edited g { g with file_modified := g.file_modified + 1 } :=
  .of_lt rfl rfl (Nat.lt_succ_self _)

lemma Buffer.store_nil (mem : ℤ → Char) (p : ℤ) : Buffer.store mem p [] = mem := by
  funext i
  simp [Buffer.store]

lemma Buffer.hole_of_nonpos {b : Buffer} {p size : ℤ} (h : size ≤ 0) : b.hole p size = b :=
  if_pos h

lemma Buffer.file_modified_hole {b : Buffer} {p size : ℤ} (h : 0 < size) :
    (b.hole p size).file_modified = b.file_modified + 1 := by
  rw [Buffer.hole, if_neg (by omega)]

lemma edited_text_hole_make (g : Globals) (p size : ℤ) : Edited g (g.text_hole_make p size) := by
  by_cases h : 0 < size
  · have hc := Buffer.file_modified_hole (b := g.toBuffer) (p := p) h
    have hlt : g.file_modified < (g.hole p size).file_modified := by omega
    rw [Globals.text_hole_make]
    split <;> exact .of_lt rfl rfl hlt
  · rw [Globals.text_hole_make, Buffer.hole_of_nonpos (by omega), if_neg (by omega)]
    exact .of_eq rfl rfl rfl

lemma edited_insert (g : Globals) (p : ℤ) (s : List Char) : Edited g (g.insert p s) := by
  have h := edited_text_hole_make g p s.length
  cases s with
  | nil =>
    refine h.trans (.of_eq ?_ rfl rfl)
    simp [Globals.insert, Buffer.store_nil]
  | cons c s =>
    refine .of_lt h.saved h.dropped ?_
    have hpos : (0 : ℤ) < ((c :: s).length : ℤ) := by simp
    have hc := Buffer.file_modified_hole (b := g.toBuffer) (p := p) hpos
    have hlt : g.file_modified < (g.hole p (c :: s).length).file_modified := by omega
    simp only [Globals.insert, Globals.text_hole_make]
    split <;> exact hlt

lemma Buffer.text_hole_delete_counts (b : Buffer) (p q : ℤ) :
    (b.text_hole_delete p q).2 = b ∨
      (b.text_hole_delete p q).2.file_modified = b.file_modified + 1 := by
  simp only [Buffer.text_hole_delete]
  by_cases hout : (if q < p then p + 1 else q + 1) < 0 ∨
      b.end_ < (if q < p then p + 1 else q + 1) ∨ (if q < p then q else p) < 0 ∨
      b.end_ ≤ if q < p then q else p
  · exact .inl (by rw [if_pos hout])
  · rw [if_neg hout]
    by_cases he : b.end_ - (q - p + 1) ≤ 0
    · exact .inr (by rw [if_pos he])
    · exact .inr (by rw [if_neg he])

lemma edited_delete (g : Globals) (p q : ℤ) :
    Edited g (g.deleted p q) := by
  obtain h | h := g.toBuffer.text_hole_delete_counts p q
  · exact .of_eq h rfl rfl
  · refine .of_lt rfl rfl ?_
    show g.file_modified < (g.toBuffer.text_hole_delete p q).2.file_modified
    omega

lemma refresh_eq (g : Globals) :
    ∃ s w, g.refresh = { g with toScreen := s, world := w } := by
  rw [Globals.refresh]
  split
  · exact ⟨g.toScreen, _, rfl⟩
  · exact ⟨_, _, rfl⟩

lemma edited_refresh (g : Globals) : Edited g g.refresh := by
  obtain ⟨s, w, h⟩ := refresh_eq g
  rw [h]
  exact .of_eq rfl rfl rfl

/-- Every operation of the editing commands counts what it changes. -/
lemma Edit.exec_edited {β : Type} {o : Edit β} {g g' : Globals} {b : β}
    (h : Edit.exec β o g = .done b g') : Edited g g' := by
  cases o with
  | look | view | status_line | fuel | end_cmd_q | scroll | set_mark | check_context =>
    cases h
    exact .of_eq rfl rfl rfl
  | indicate_error =>
    cases h
    split
    · exact (edited_refresh g).trans (edited_refresh _)
    · exact .refl g
  | get_one_char =>
    simp only [exec, typed] at h
    split at h <;> cases h
    exact .of_eq rfl rfl rfl
  | get_input_line =>
    simp only [exec, typed] at h
    split at h <;> cases h
    exact .of_eq rfl rfl rfl
  | stupid_insert p c held =>
    simp only [exec] at h
    split at h <;> cases h
    exact edited_insert g p [c]
  | string_insert p s =>
    simp only [exec] at h
    split at h <;> cases h
    exact edited_insert g p s
  | text_hole_delete p q =>
    cases h
    exact edited_delete g p q
  | poke p c =>
    cases h
    exact .of_lt rfl rfl (Nat.lt_succ_self _)
  | goto_mark =>
    simp only [exec] at h
    split at h
    · split at h <;> cases h
      exact .of_eq rfl rfl rfl
    · cases h
      exact .of_eq rfl rfl rfl
  | swap_context =>
    simp only [exec] at h
    split at h
    · split at h <;> cases h
      exact .of_eq rfl rfl rfl
    · cases h
      exact .of_eq rfl rfl rfl
  | stop e => cases h

/-! ## Files -/

lemma full_write_zero (ccs : List ℤ) (total : ℤ) : full_write ccs 0 total = total := by
  cases ccs <;> simp [full_write]

/-- A message leaves the text alone. -/
lemma edited_say (g : Globals) (msg : String) : Edited g (g.say msg) := .of_eq rfl rfl rfl

lemma edited_read_in (g : Globals) (fn : List Char) (p : ℤ) (size : ℕ) (found : Found) :
    Edited g (g.read_in fn p size found).2 := by
  have hhole := edited_text_hole_make g p size
  rw [Globals.read_in]
  cases found.data with
  | none => exact hhole.trans ((edited_delete _ _ _).trans (edited_say _ _))
  | some data =>
    have hstore : Edited g { g.text_hole_make p size with
        mem := Buffer.store (g.text_hole_make p size).mem p (data.take size) } := by
      obtain h0 | hpos := Nat.eq_zero_or_pos size
      · simpa only [h0, List.take_zero, Buffer.store_nil] using hhole
      · refine .of_lt hhole.saved hhole.dropped ?_
        have hc := @Buffer.file_modified_hole g.toBuffer p size (by omega)
        have hlt : g.file_modified < (g.hole p size).file_modified := by omega
        simp only [Globals.text_hole_make]
        split <;> exact hlt
    dsimp only
    split
    · exact hstore.trans ((edited_delete _ _ _).trans (edited_say _ _))
    · exact hstore.trans (edited_touch _)

lemma edited_insert_found (g : Globals) (fn : List Char) (p : ℤ) (found : Found) :
    Edited g (g.insert_found fn p found).2 := by
  rw [Globals.insert_found]
  cases found.st_size with
  | none => exact edited_say _ _
  | some size =>
    dsimp only
    split_ifs
    all_goals first | exact edited_say _ _ | exact edited_read_in g fn p size found

lemma edited_file_insert (g : Globals) (fn : List Char) (p : ℤ) (ro : Bool) :
    Edited g (g.file_insert fn p ro).2 := by
  rw [Globals.file_insert]
  have hworld : Edited g { g with world := { g.world with files := g.world.files.tail } } :=
    .of_eq rfl rfl rfl
  have hfound := hworld.trans (edited_insert_found _ fn p
    (g.world.files.headD ⟨none, false, false, none, false, ""⟩))
  dsimp only
  split
  · exact hfound.trans (.of_eq rfl rfl rfl)
  · exact hfound

/-- What a command that writes `first` through `last` does, with the result `l`. -/
structure Written (g g' : Globals) (first last l : ℤ) : Prop where
  content : g'.content = g.content
  dropped : g'.dropped = g.dropped
  saved : g'.saved = g.saved ∨ g'.saved = g.content
  counted : g'.file_modified = g.file_modified
  complete : 0 ≤ l → first = 0 → last = g.end_ - 1 → l = last - first + 1 → g'.saved = g.content

lemma written_file_write (g : Globals) (fn : Option (List Char)) (first last : ℤ) :
    Written g (g.file_write fn first last).2 first last (g.file_write fn first last).1 := by
  rw [Globals.file_write]
  by_cases hfn : fn = none
  · rw [if_pos hfn]
    exact ⟨rfl, rfl, .inl rfl, rfl, fun h => absurd h (by omega)⟩
  · rw [if_neg hfn]
    dsimp only
    by_cases hopen : (g.world.sinks.headD ⟨false, [], ""⟩).opens
    · rw [if_neg (by simpa using hopen)]
      split
      · split
        · exact ⟨rfl, rfl, .inr rfl, rfl, fun _ _ _ _ => rfl⟩
        · rename_i hpart
          exact ⟨rfl, rfl, .inl rfl, rfl, fun _ h0 h1 _ => absurd ⟨h0, h1⟩ hpart⟩
      · rename_i hpart
        refine ⟨rfl, rfl, .inl rfl, rfl, fun _ _ _ hl => absurd ?_ hpart⟩
        dsimp only at hl
        rw [← hl]
        exact full_write_zero _ 0
    · rw [if_pos hopen]
      exact ⟨rfl, rfl, .inl rfl, rfl, fun h => absurd h (by omega)⟩

/-- A command that has written the whole text leaves it saved. -/
lemma saved_file_write {g g' : Globals} {colon leaving : Bool} {fn : Option (List Char)}
    {first last l : ℤ}
    (h : (sys (.file_write colon leaving fn first last)).run exec g = .done l g') :
    g'.content = g.content ∧ (g'.saved = g.saved ∨ g'.saved = g.content) ∧
      (0 ≤ l → first = 0 → last = g.end_ - 1 → l = last - first + 1 → g'.saved = g.content) := by
  have hw := written_file_write g fn first last
  generalize hx : g.file_write fn first last = x at hw
  simp only [run_sys, Sys.exec, hx] at h
  cases h
  split <;> exact ⟨hw.content, hw.saved, hw.complete⟩

/-! ## The invariant -/

/-- A text that does not count as modified is as it was last loaded or completely written, and so
was every text that was given up without `!`. -/
structure Safe (g : Globals) : Prop where
  counted : g.file_modified = 0 → g.content = g.saved
  kept : ∀ d ∈ g.dropped, d.forced = false → d.text = d.saved

lemma Edited.safe {g g' : Globals} (h : Edited g g') (hg : Safe g) : Safe g' := by
  refine ⟨?_, by rw [h.dropped]; exact hg.kept⟩
  intro h0
  have hc := h.counted
  rw [h.unchanged (by omega), h.saved, hg.counted (by omega)]

lemma Safe.same {g g' : Globals} (hg : Safe g) (hb : g'.toBuffer = g.toBuffer)
    (hs : g'.saved = g.saved) (hd : g'.dropped = g.dropped) : Safe g' :=
  (Edited.of_eq hb hs hd).safe hg

lemma Written.safe {g g' : Globals} {first last l : ℤ} (h : Written g g' first last l)
    (hg : Safe g) : Safe g' := by
  refine ⟨?_, by rw [h.dropped]; exact hg.kept⟩
  intro h0
  rw [h.content]
  obtain hs | hs := h.saved
  · rw [hs]
    exact hg.counted (by rw [← h.counted]; exact h0)
  · exact hs.symm

/-- A text is only given up with `!` or as it was last loaded or completely written. -/
def Allowed : ∀ β : Type, Op β → Globals → Prop
  | _, .inr (.leave forced), g => forced = false → g.content = g.saved
  | _, .inr (.fresh_buffer _ lost), g => lost = some false → g.content = g.saved
  | _, _, _ => True

/-- The range a colon command is to write before it ends editing without `!`. -/
def leaving_range : ∀ β : Type, Op β → Option (ℤ × ℤ)
  | _, .inr (.file_write true true _ first last) => some (first, last)
  | _, _ => none

/-- The range a command is to write before it ends editing is the whole text, or there is nothing
to save. -/
def Covers (β : Type) (o : Op β) (g : Globals) : Prop :=
  ∀ r ∈ leaving_range β o, r = (0, g.end_ - 1) ∨ g.file_modified = 0

instance (β : Type) (o : Op β) (g : Globals) : Decidable (Covers β o g) :=
  inferInstanceAs (Decidable (∀ r ∈ leaving_range β o, _))

/-- The operations keep the text safe as long as it is only given up where that is allowed. -/
lemma exec_safe {β : Type} (o : Op β) (g : Globals) (hg : Safe g) (ha : Allowed β o g) :
    (exec β o g).Ends (fun _ => Safe) (fun _ => True) := by
  rw [Outcome.ends_iff_of_done]
  intro b g' h
  cases o with
  | inl o => exact (Edit.exec_edited h).safe hg
  | inr o =>
    cases o with
    | refresh =>
      cases h
      exact (edited_refresh g).safe hg
    | set_mode | top | createScreen | rawmode | strerror | start =>
      cases h
      exact hg.same rfl rfl rfl
    | remember | repeat_cmd =>
      cases h
      split
      all_goals exact hg.same rfl rfl rfl
    | touch =>
      cases h
      exact (edited_touch g).safe hg
    | hit_return =>
      obtain ⟨overrun, q, rfl⟩ := hit_return_done h
      exact hg.same rfl rfl rfl
    | check | next_line | count_lines | mark_line =>
      simp only [exec_inr, Sys.exec] at h
      repeat' split at h
      all_goals cases h
      all_goals exact hg
    | file_size =>
      simp only [exec_inr, Sys.exec] at h
      split at h <;> cases h
      all_goals exact hg.same rfl rfl rfl
    | file_insert fn p ro =>
      cases h
      exact (edited_file_insert g fn p ro).safe hg
    | loaded =>
      cases h
      exact ⟨fun _ => rfl, hg.kept⟩
    | leave forced =>
      cases h
      refine ⟨hg.counted, ?_⟩
      intro d hd hf
      obtain rfl | hd := List.mem_cons.mp hd
      · exact ha hf
      · exact hg.kept d hd hf
    | fresh_buffer size lost =>
      cases h
      refine ⟨fun _ => rfl, ?_⟩
      intro d hd hf
      obtain hd | hd := List.mem_append.mp hd
      · obtain ⟨forced, hlost, rfl⟩ := List.mem_map.mp hd
        cases hf
        exact ha (by simpa using hlost)
      · exact hg.kept d hd hf
    | file_write colon leaving fn first last =>
      have hw := written_file_write g fn first last
      cases h
      split
      · rename_i hall
        refine ⟨fun _ => ?_, (hw.safe hg).kept⟩
        exact hw.content.trans (hw.complete hall.2.1 hall.2.2.1 hall.2.2.2.1 hall.2.2.2.2).symm
      · exact hw.safe hg

/-! ## The commands -/

variable {g : Globals}

lemma allowed_edit {α : Type} (p : Cmd α) : (edit p).Along exec Allowed g :=
  along_edit (fun _ _ _ => trivial) p

/-- Neither the end of editing nor a new buffer. -/
def Stays : ∀ β : Type, Sys β → Prop
  | _, .leave _ => False
  | _, .fresh_buffer _ _ => False
  | _, _ => True

lemma allowed_of_stays {α : Type} {p : Proc α} (h : p.All (Parts Stays)) :
    p.Along exec Allowed g := by
  refine h.along ?_ g
  intro β o g ho
  cases o with
  | inl o => trivial
  | inr o => cases o <;> trivial

lemma allowed_look {α : Type} {f : Ed → Proc α} (h : (f g.toEd).Along exec Allowed g) :
    ((edit look).bind f).Along exec Allowed g :=
  (along_look (fun _ => trivial) f).mpr h

/-- A procedure along which the text is only given up where that is allowed keeps it safe. -/
lemma run_safe {α : Type} {p : Proc α} {a : α} {g' : Globals} (hg : Safe g)
    (hp : p.Along exec Allowed g) (hr : p.run exec g = .done a g') : Safe g' := by
  have h := Program.run_ends (fun _ o g hg ha => exec_safe o g hg ha) hg hp
  rw [hr] at h
  exact h

lemma allowed_leave {forced : Bool} (h : forced = false → g.content = g.saved) :
    (sys (.leave forced)).Along exec Allowed g := (along_sys _).mpr h

lemma allowed_colon_quit (hg : Safe g) (l : Line) : (colon_quit l).Along exec Allowed g := by
  simp only [colon_quit, Program.bind_eq]
  refine allowed_look ?_
  split_ifs with hforce hq hmod
  · refine Program.Along.bind (allowed_edit _) fun _ _ _ => ?_
    exact allowed_leave fun h => by cases h
  · exact allowed_leave fun h => by cases h
  -- the message names the command, which is one case more
  · exact allowed_edit _
  · exact allowed_edit _
  · exact allowed_edit _
  · exact allowed_edit _
  · exact allowed_leave fun _ => hg.counted (not_not.mp hmod)

lemma allowed_colon_rewind (hg : Safe g) (l : Line) : (colon_rewind l).Along exec Allowed g := by
  simp only [colon_rewind, Program.bind_eq]
  refine allowed_look ?_
  split_ifs with hmod
  · exact allowed_edit _
  · refine Program.Along.bind (allowed_edit _) fun _ g' hr => ?_
    refine allowed_leave fun hforce => ?_
    have h0 : g.file_modified = 0 := by
      by_contra hne
      exact hmod ⟨hne, by simp [hforce]⟩
    cases hr
    exact hg.counted h0

lemma allowed_init_text_buffer (fn : Option (List Char)) (lost : Option Bool)
    (h : lost = some false → g.content = g.saved) :
    (init_text_buffer fn lost).Along exec Allowed g := by
  rw [init_text_buffer]
  refine Program.Along.bind ((along_sys _).mpr trivial) fun size g' hr => ?_
  refine Program.Along.bind ((along_sys _).mpr fun hl => ?_) fun _ _ _ => allowed_of_stays ?_
  · have hsame : g'.content = g.content ∧ g'.saved = g.saved := by
      simp only [run_sys, Sys.exec] at hr
      split at hr <;> cases hr <;> exact ⟨rfl, rfl⟩
    rw [hsame.1, hsame.2, h hl]
  · have hloaded : ∀ rc : ℤ, (do sys .loaded; return rc : Proc ℤ).All (Parts Stays) :=
      fun rc => parts_after trivial fun _ => parts_pure rc
    refine parts_then fun _ => ?_
    dsimp only
    split
    · exact parts_then fun _ => hloaded 0
    · exact parts_after trivial fun rc => hloaded rc

lemma allowed_colon_edit (hg : Safe g) (l : Line) : (colon_edit l).Along exec Allowed g := by
  simp only [colon_edit, Program.bind_eq]
  refine allowed_look ?_
  split_ifs with hmod hnone
  · exact allowed_edit _
  · exact allowed_edit _
  · refine Program.Along.bind (allowed_init_text_buffer _ _ ?_) fun rc _ _ => allowed_of_stays ?_
    · intro hforce
      refine hg.counted ?_
      by_contra hne
      exact hmod ⟨hne, by simpa using hforce⟩
    · split_ifs
      · refine parts_then fun _ => parts_then fun s => ?_
        exact parts_after trivial fun _ => parts_edit _
      · exact parts_pure ()

lemma allowed_exit_cmd (hg : Safe g) : exit_cmd.Along exec Allowed g := by
  simp only [exit_cmd, Program.bind_eq]
  refine Program.Along.bind (allowed_edit _) fun c1 g₁ hr => ?_
  split_ifs with hZ
  · exact allowed_edit _
  · have hg₁ : Safe g₁ := run_safe hg (allowed_edit _) hr
    refine allowed_look ?_
    split_ifs with hmod hro
    · exact allowed_edit _
    · refine Program.Along.bind ((along_sys _).mpr trivial) fun reason g₂ hr₂ => ?_
      refine Program.Along.bind ((along_sys _).mpr trivial) fun cnt g₃ hr₃ => ?_
      split_ifs with hneg herr hcnt
      · exact allowed_edit _
      · trivial
      · refine allowed_leave fun _ => ?_
        cases hr₂
        obtain ⟨hcontent, -, hcomplete⟩ := saved_file_write hr₃
        rw [hcontent, hcomplete (by omega) rfl rfl (by omega)]
      · trivial
    · exact allowed_leave fun _ => hg₁.counted (not_not.mp hmod)

lemma allowed_colon_write (hg : Safe g) (l : Line) (hc : (colon_write l).Along exec Covers g) :
    (colon_write l).Along exec Allowed g := by
  simp only [colon_write, Program.bind_eq] at hc ⊢
  rw [along_look fun _ g₁ h => by cases h] at hc
  refine allowed_look ?_
  split_ifs with hro
  · exact allowed_edit _
  rw [if_neg hro] at hc
  refine Program.Along.bind ((along_sys _).mpr trivial) fun reason g₁ hr₁ => ?_
  have hc₁ := hc.rest hr₁
  cases hr₁
  refine Program.Along.bind ((along_sys _).mpr trivial) fun n g₂ hr₂ => ?_
  have hc₂ := (along_sys _).mp hc₁.first
  split_ifs with hneg herr hleave
  · exact allowed_edit _
  · trivial
  · refine Program.Along.bind (allowed_edit _) fun _ g₃ hr₃ => ?_
    refine allowed_leave fun hforce => ?_
    cases hr₃
    obtain ⟨hcontent, hsaved, hcomplete⟩ := saved_file_write hr₂
    show g₂.content = g₂.saved
    rw [hcontent]
    have hleaving : (l.leaves && !l.useforce) = true := by simp [hleave.1, hforce]
    rw [hleaving] at hc₂
    obtain hr | h0 := hc₂ _ rfl
    · obtain ⟨h0, h1⟩ := Prod.mk.inj hr
      exact (hcomplete (by omega) h0 h1 hleave.2).symm
    · obtain hs | hs := hsaved
      · rw [hs, hg.counted h0]
      · exact hs.symm
  · exact Program.Along.bind (allowed_edit _) fun _ _ _ => trivial

/-- Of the colon commands only a few can give the text up. -/
lemma allowed_line_exec (hg : Safe g) (l : Line) (hc : l.exec.Along exec Covers g) :
    l.exec.Along exec Allowed g := by
  have hdone : ∀ (b : Bool) (g' : Globals), (pure b : Proc Bool).Along exec Allowed g' :=
    fun _ _ => trivial
  by_cases hedit : ColonCmd.of l.cmd = .edit
  · rw [Line.exec, hedit]
    exact (allowed_colon_edit hg l).bind fun _ _ _ => hdone _ _
  by_cases hleave : (ColonCmd.of l.cmd).Leaves
  · rw [Line.exec] at hc ⊢
    obtain hl | hl | hl := hleave
    · rw [hl]
      exact (allowed_colon_quit hg l).bind fun _ _ _ => hdone _ _
    · rw [hl]
      exact (allowed_colon_rewind hg l).bind fun _ _ _ => hdone _ _
    · rw [hl] at hc ⊢
      exact (allowed_colon_write hg l hc.first).bind fun _ _ _ => hdone _ _
  · exact allowed_of_stays (parts_line_exec l (fun h => absurd h hedit)
      (fun h => absurd h hleave) (fun _ => ⟨fun _ _ _ => trivial, fun _ _ => trivial, trivial⟩)
      fun _ => ⟨trivial, trivial, trivial⟩)

lemma allowed_colon (hg : Safe g) (buf : List Char) (hc : (colon buf).Along exec Covers g) :
    (colon buf).Along exec Allowed g := by
  rw [colon] at hc ⊢
  by_cases hbuf : buf = []
  · rw [if_pos hbuf]
    exact allowed_edit _
  · rw [if_neg hbuf] at hc ⊢
    have haddr : ∀ p, (get_address p).Along exec Allowed g := fun p =>
      allowed_of_stays (parts_get_address (fun _ => trivial) p)
    refine Program.Along.bind (haddr _) fun r g₁ hr₁ => ?_
    have hc₁ := hc.rest hr₁
    have hline := hc₁.first
    refine Program.Along.bind (allowed_line_exec (run_safe hg (haddr _) hr₁) _ hline) fun b g₂ _ => ?_
    split_ifs
    · exact allowed_edit _
    · trivial

lemma allowed_switch (hg : Safe g) (c : Char) (hc : (switch c).Along exec Covers g) :
    (switch c).Along exec Allowed g := by
  by_cases hcolon : key_of c = .colon
  · rw [switch, hcolon] at hc ⊢
    refine Program.Along.bind (allowed_edit _) fun p g₁ hr₁ => ?_
    have hc₁ := hc.rest hr₁
    have hline := hc₁.first
    have hg₁ := run_safe hg (allowed_edit _) hr₁
    refine Program.Along.bind (allowed_colon hg₁ p hline) fun _ _ _ => ?_
    exact Program.Along.bind (allowed_edit _) fun _ _ _ => trivial
  · by_cases hexit : key_of c = .exit
    · rw [switch, hexit]
      exact Program.Along.bind (allowed_exit_cmd hg) fun _ _ _ => trivial
    · exact allowed_of_stays (parts_switch (fun _ => trivial) c hcolon (fun h => absurd h hexit)
        (fun _ => trivial) (fun _ => ⟨trivial, trivial⟩) (fun _ => trivial)
        fun _ => ⟨fun _ => trivial, fun _ => trivial⟩)

lemma allowed_do_cmd (hg : Safe g) (c : Char) (hc : (do_cmd c).Along exec Covers g) :
    (do_cmd c).Along exec Allowed g := by
  rw [do_cmd] at hc ⊢
  simp only [Program.bind_eq] at hc ⊢
  rw [along_look fun _ => nofun] at hc
  refine allowed_look ?_
  split_ifs at hc ⊢
  · have hswitch := hc.first
    refine Program.Along.bind (allowed_switch hg c hswitch) fun k g₁ _ => ?_
    cases k with
    | none => trivial
    | some c => exact allowed_edit _
  · have hkey := parts_replace_key (P := Stays) trivial (fun _ => trivial) c
    exact Program.Along.bind (allowed_of_stays hkey) fun _ _ _ => allowed_edit _
  · have hkey := parts_insert_key (P := Stays) trivial (fun _ => trivial) c
    exact Program.Along.bind (allowed_of_stays hkey) fun _ _ _ => allowed_edit _

lemma allowed_turn (hg : Safe g) (hc : turn.Along exec Covers g) : turn.Along exec Allowed g := by
  rw [turn] at hc ⊢
  have hrefresh : refresh.Along exec Allowed g := (along_sys _).mpr trivial
  refine Program.Along.bind hrefresh fun _ g₁ hr₁ => ?_
  refine Program.Along.bind (allowed_edit _) fun c g₂ hr₂ => ?_
  refine Program.Along.bind (allowed_edit _) fun _ g₃ hr₃ => ?_
  refine Program.Along.bind (allowed_edit _) fun _ g₄ hr₄ => ?_
  have hremember : (sys (.remember c)).Along exec Allowed g₄ := (along_sys _).mpr trivial
  refine Program.Along.bind hremember fun _ g₅ hr₅ => ?_
  have hg₁ := run_safe hg hrefresh hr₁
  have hg₂ := run_safe hg₁ (allowed_edit _) hr₂
  have hg₃ := run_safe hg₂ (allowed_edit _) hr₃
  have hg₄ := run_safe hg₃ (allowed_edit _) hr₄
  have hg₅ := run_safe hg₄ hremember hr₅
  have hc₁ := hc.rest hr₁
  have hc₂ := hc₁.rest hr₂
  have hc₃ := hc₂.rest hr₃
  have hc₄ := hc₃.rest hr₄
  have hc₅ := hc₄.rest hr₅
  exact allowed_do_cmd hg₅ c hc₅

lemma allowed_event (hg : Safe g) (e : Event) (hc : e.proc.Along exec Covers g) :
    e.proc.Along exec Allowed g := by
  cases e with
  | file fn =>
    simp only [Event.proc, edit_file]
    refine Program.Along.bind ((along_sys _).mpr trivial) fun _ _ _ => ?_
    refine Program.Along.bind ((along_sys _).mpr trivial) fun _ _ _ => ?_
    refine Program.Along.bind (allowed_init_text_buffer fn none nofun) fun _ _ _ => ?_
    exact (along_sys _).mpr trivial
  | command memory =>
    simp only [Event.proc, initial_cmd] at hc ⊢
    refine Program.Along.bind (allowed_edit _) fun _ g₁ hr₁ => ?_
    exact allowed_colon (run_safe hg (allowed_edit _) hr₁) _ (hc.rest hr₁)
  | key => exact allowed_turn hg hc

/-! ## Runs -/

variable {mem : ℤ → Char} {base : ℕ → ℤ} {keys : List Char} {world : World} {readonly : Bool}
variable {optind argc : ℤ}

/-- In every run whose commands that write and leave cover the text, it stays safe. -/
theorem reach_safe {s : Globals}
    (h : Reach step (fun g e => e.proc.Along exec Covers g)
      (vi_main mem base keys world readonly optind argc) s) : Safe s := by
  refine h.induction_on ⟨fun _ => rfl, nofun⟩ ?_
  intro g e g' hg hc hs
  rw [step] at hs
  split at hs
  · obtain ⟨a, hr⟩ := Outcome.state_eq_some.mp hs
    exact run_safe hg (allowed_event hg e hc) hr
  · cases hs

/-- An editor for a file of two lines, with the keys to come and the results of the calls of
`write`. -/
def two_lines (keys : List Char) (wrote : List ℤ) : Globals :=
  vi_main (fun _ => NUL) (fun n => 100000 * n) keys
    { busy := []
      sizes := []
      erase := []
      file_sizes := [some 4]
      files := [⟨some 4, true, true, some ['a', '\n', 'b', '\n'], false, ""⟩]
      sinks := [⟨true, wrote, ""⟩]
      behind := []
      fuel := 10 }
    false 0 1

end EspLinux.Vi
