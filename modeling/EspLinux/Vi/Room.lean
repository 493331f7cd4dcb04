import EspLinux.Vi.Parts

/-!
# vi: the spare room of the text buffer

`text_hole_make` moves the text to a larger allocation when a hole leaves no byte to spare, and
repairs only `screenbegin`, `dot` and `end`.  As long as every hole fits with a byte to spare, how
much room there is makes no difference to anything, and no pointer is used after its allocation has
gone: the marks and the pointers the commands keep are all into the current one.
-/

namespace EspLinux.Vi

open Lib

/-! ## States that differ in the size of the allocation -/

/-- Only the size of the allocation is another one. -/
def SameText (s t : Globals) : Prop := t = { s with text_size := t.text_size }

/-- The size of the hole a file is read into, if it is read at `p`. -/
def Found.hole (found : Found) (g : Globals) (p : ℤ) : ℕ :=
  if found.regular ∧ 0 ≤ p ∧ p ≤ g.end_ ∧ found.opens then found.st_size.getD 0 else 0

/-- A hole fits, with a byte to spare. -/
def Fitting (g : Globals) (size : ℤ) : Prop := 0 < size → g.end_ + size < g.text_size

instance (g : Globals) (size : ℤ) : Decidable (Fitting g size) := inferInstanceAs (Decidable (_ → _))

/-- What is inserted fits. -/
def HasRoom : ∀ β : Type, Op β → Globals → Prop
  | _, .inl (.stupid_insert _ _ _), g => Fitting g 1
  | _, .inl (.string_insert _ s), g => Fitting g s.length
  | _, .inr (.file_insert _ p _), g =>
    Fitting g ((g.world.files.headD ⟨none, false, false, none, false, ""⟩).hole g p)
  | _, _, _ => True

instance (β : Type) (o : Op β) (g : Globals) : Decidable (HasRoom β o g) := by
  cases o with
  | inl o =>
    cases o
    case stupid_insert => exact inferInstanceAs (Decidable (Fitting _ _))
    case string_insert => exact inferInstanceAs (Decidable (Fitting _ _))
    all_goals exact inferInstanceAs (Decidable True)
  | inr o =>
    cases o
    case file_insert => exact inferInstanceAs (Decidable (Fitting _ _))
    all_goals exact inferInstanceAs (Decidable True)

namespace Globals

variable {g : Globals} {p size n : ℤ}

/-- A hole that fits is made where the text is. -/
lemma text_hole_make_of_fitting (h : Fitting g size) :
    g.text_hole_make p size = { g with toBuffer := g.hole p size } := by
  rw [text_hole_make]
  refine if_neg fun hgrow => ?_
  obtain ⟨hpos, hsize⟩ := hgrow
  have hfits := h hpos
  rw [Buffer.hole, if_neg (by omega)] at hsize
  have hend : g.text_size ≤ g.end_ + size := hsize
  omega

lemma insert_of_fitting {s : List Char} (h : Fitting g s.length) :
    g.insert p s = { g with
      toBuffer := { g.hole p s.length with mem := Buffer.store (g.hole p s.length).mem p s } } := by
  rw [insert, text_hole_make_of_fitting h]

lemma block_hole : (g.hole p size).block = g.block := by
  rw [Buffer.hole]
  split <;> rfl

lemma refresh_resize : ({ g with text_size := n } : Globals).refresh = { g.refresh with text_size := n } := by
  rw [refresh, refresh]
  dsimp only
  split <;> rfl

end Globals

/-! ## Files -/

lemma read_in_resize {g : Globals} {n : ℤ} (fn : List Char) (p : ℤ) {size : ℕ} (found : Found)
    (h : Fitting g size) (h' : Fitting { g with text_size := n } size) :
    ({ g with text_size := n } : Globals).read_in fn p size found =
      ((g.read_in fn p size found).1, { (g.read_in fn p size found).2 with text_size := n }) := by
  rw [Globals.read_in, Globals.read_in, Globals.text_hole_make_of_fitting h,
    Globals.text_hole_make_of_fitting h']
  cases found.data with
  | none => rfl
  | some data =>
    dsimp only
    split <;> rfl

lemma insert_found_resize {g : Globals} {n : ℤ} (fn : List Char) (p : ℤ) {found : Found}
    (h : Fitting g (found.hole g p)) (h' : Fitting { g with text_size := n } (found.hole g p)) :
    ({ g with text_size := n } : Globals).insert_found fn p found =
      ((g.insert_found fn p found).1, { (g.insert_found fn p found).2 with text_size := n }) := by
  rw [Globals.insert_found, Globals.insert_found]
  cases hsize : found.st_size with
  | none => rfl
  | some size =>
    dsimp only
    by_cases hreg : found.regular
    · rw [if_neg (not_not.mpr hreg), if_neg (not_not.mpr hreg)]
      by_cases hout : p < 0 ∨ g.end_ < p
      · rw [if_pos hout, if_pos hout]
        rfl
      · rw [if_neg hout, if_neg hout]
        by_cases hopen : found.opens
        · rw [if_neg (not_not.mpr hopen), if_neg (not_not.mpr hopen)]
          have hhole : found.hole g p = size := by
            rw [Found.hole, if_pos ⟨hreg, by omega, by omega, hopen⟩, hsize]
            rfl
          rw [hhole] at h h'
          exact read_in_resize fn p found h h'
        · rw [if_pos hopen, if_pos hopen]
          rfl
    · rw [if_pos hreg, if_pos hreg]
      rfl

lemma file_insert_resize {g : Globals} {n : ℤ} (fn : List Char) (p : ℤ) (ro : Bool)
    (h : HasRoom ℤ (.inr (.file_insert fn p ro)) g)
    (h' : HasRoom ℤ (.inr (.file_insert fn p ro)) { g with text_size := n }) :
    ({ g with text_size := n } : Globals).file_insert fn p ro =
      ((g.file_insert fn p ro).1, { (g.file_insert fn p ro).2 with text_size := n }) := by
  have hfound := insert_found_resize (g := { g with world := { g.world with files := g.world.files.tail } })
    (n := n) fn p h h'
  rw [Globals.file_insert, Globals.file_insert]
  dsimp only at hfound ⊢
  rw [hfound]
  dsimp only
  split <;> rfl

lemma file_write_resize (g : Globals) (n : ℤ) (fn : Option (List Char)) (first last : ℤ) :
    ({ g with text_size := n } : Globals).file_write fn first last =
      ((g.file_write fn first last).1, { (g.file_write fn first last).2 with text_size := n }) := by
  rw [Globals.file_write, Globals.file_write]
  split
  · rfl
  · dsimp only
    split
    · rfl
    · split
      · split <;> rfl
      · rfl

/-! ## The operations -/

lemma typed_same {α : Type} {f f' : α → Globals}
    (h : ∀ a q, SameText { f a with queue := q } { f' a with queue := q })
    (x : Option (α × Queue)) : (Edit.typed f x).Rel SameText (Edit.typed f' x) := by
  cases x with
  | none => exact .stopped
  | some x => exact .done (h _ _)

/-- No operation that has room sees how much there is. -/
lemma exec_same {β : Type} (o : Op β) (g : Globals) (n : ℤ) (h : HasRoom β o g)
    (h' : HasRoom β o { g with text_size := n }) :
    (exec β o g).Rel SameText (exec β o { g with text_size := n }) := by
  cases o with
  | inl o =>
    cases o with
    | look | view | status_line | fuel | end_cmd_q | text_hole_delete | poke | scroll | set_mark
    | check_context => exact .done rfl
    | indicate_error =>
      simp only [exec_inl, Edit.exec]
      split
      · rw [Globals.refresh_resize (n := n), Globals.refresh_resize (n := n)]
        exact .done rfl
      · exact .done rfl
    | get_one_char | get_input_line =>
      refine typed_same ?_ _
      exact fun _ _ => rfl
    | stupid_insert p c held =>
      have hs := Globals.insert_of_fitting (p := p) (s := [c]) h
      have ht := Globals.insert_of_fitting (p := p) (s := [c]) h'
      simp only [exec_inl, Edit.exec, hs, ht]
      split
      · exact .stopped
      · exact .done rfl
    | string_insert p s =>
      have hs := Globals.insert_of_fitting (p := p) (s := s) h
      have ht := Globals.insert_of_fitting (p := p) (s := s) h'
      simp only [exec_inl, Edit.exec, hs, ht]
      split
      · exact .stopped
      · exact .done rfl
    | goto_mark i =>
      simp only [exec_inl, Edit.exec]
      split
      · split
        · exact .stopped
        · exact .done rfl
      · exact .done rfl
    | swap_context =>
      simp only [exec_inl, Edit.exec]
      split
      · split
        · exact .stopped
        · exact .done rfl
      · exact .done rfl
    | stop e => exact .stopped
  | inr o =>
    cases o with
    | refresh =>
      simp only [exec_inr, Sys.exec]
      rw [Globals.refresh_resize (n := n)]
      exact .done rfl
    | set_mode | top | rawmode | strerror | start | loaded | touch | leave | fresh_buffer =>
      exact .done rfl
    | createScreen => exact .done rfl
    | remember c =>
      simp only [exec_inr, Sys.exec]
      split <;> exact .done rfl
    | repeat_cmd =>
      simp only [exec_inr, Sys.exec]
      split <;> exact .done rfl
    | hit_return =>
      simp only [exec_inr, Sys.exec]
      split
      · exact .done rfl
      · exact .stopped
    | check p =>
      simp only [exec_inr, Sys.exec]
      split
      · exact .done rfl
      · exact .stopped
    | next_line p =>
      simp only [exec_inr, Sys.exec]
      split
      · exact .done rfl
      · split
        · exact .stopped
        · exact .done rfl
    | count_lines q ch =>
      simp only [exec_inr, Sys.exec]
      split
      · exact .done rfl
      · split
        · exact .stopped
        · exact .done rfl
    | mark_line i =>
      simp only [exec_inr, Sys.exec]
      cases g.mark i with
      | none => exact .done rfl
      | some q =>
        dsimp only
        split
        · exact .stopped
        · exact .done rfl
    | file_size fn =>
      rcases fn with _ | _ | _
      · exact .done rfl
      · exact .done rfl
      · exact .done rfl
    | file_insert fn p ro =>
      simp only [exec_inr, Sys.exec]
      rw [file_insert_resize fn p ro h h']
      exact .done rfl
    | file_write colon leaving fn first last =>
      simp only [exec_inr, Sys.exec]
      rw [file_write_resize (n := n)]
      dsimp only
      split <;> exact .done rfl

/-! ## Pointers -/

/-- No mark has lost its allocation. -/
def Current (g : Globals) : Prop := ∀ i p, g.mark i = some p → p.block = g.block

/-- The operation uses a pointer whose allocation has gone. -/
def Uses : ∀ β : Type, Op β → Globals → Prop
  | _, .inl (.stop _), _ => False
  | β, o, g => exec β o g = .stopped .dangling

instance {β : Type} (x : Result β) : Decidable (x = .stopped .dangling) :=
  match x with
  | .done _ _ => .isFalse nofun
  | .stopped e =>
    decidable_of_iff (e = .dangling) ⟨fun h => h ▸ rfl, fun h => (by cases h; rfl)⟩

instance (β : Type) (o : Op β) (g : Globals) : Decidable (Uses β o g) := by
  cases o with
  | inl o =>
    cases o
    case stop => exact inferInstanceAs (Decidable False)
    all_goals exact inferInstanceAs (Decidable (exec _ _ g = .stopped .dangling))
  | inr o => exact inferInstanceAs (Decidable (exec _ _ g = .stopped .dangling))

/-- The commands keep pointers to the current allocation only, and have no new one. -/
def Local : ∀ β : Type, Op β → Globals → Prop
  | _, .inr (.check p), g => p.block = g.block
  | _, .inr (.next_line p), g => p.block = g.block
  | _, .inr (.count_lines q _), g => q.block = g.block
  | _, .inr (.fresh_buffer _ _), _ => False
  | _, _, _ => True

lemma Current.not_stale {g : Globals} (h : Current g) (i : ℕ) : ¬ g.stale (g.mark i) := by
  rintro ⟨q, hq, hne⟩
  exact hne (h i q hq)

/-- The marks are as they were, and so is the allocation. -/
structure Unmoved (g g' : Globals) : Prop where
  mark : g'.mark = g.mark
  block : g'.block = g.block

namespace Unmoved

variable {g g' g'' : Globals}

lemma refl (g : Globals) : Unmoved g g := ⟨rfl, rfl⟩

lemma trans (h : Unmoved g g') (h' : Unmoved g' g'') : Unmoved g g'' :=
  ⟨h'.mark.trans h.mark, h'.block.trans h.block⟩

lemma current (h : Unmoved g g') (hg : Current g) : Current g' := by
  intro i p hp
  rw [h.block]
  exact hg i p (h.mark ▸ hp)

end Unmoved

lemma unmoved_hole {g : Globals} {p size : ℤ} (h : Fitting g size) :
    Unmoved g (g.text_hole_make p size) := by
  rw [Globals.text_hole_make_of_fitting h]
  exact ⟨rfl, Globals.block_hole⟩

lemma unmoved_insert {g : Globals} {p : ℤ} {s : List Char} (h : Fitting g s.length) :
    Unmoved g (g.insert p s) := by
  obtain ⟨hmark, hblock⟩ := unmoved_hole (p := p) h
  exact ⟨hmark, hblock⟩

lemma unmoved_deleted (g : Globals) (p q : ℤ) : Unmoved g (g.deleted p q) := by
  refine ⟨rfl, ?_⟩
  show (g.toBuffer.text_hole_delete p q).2.block = g.block
  simp only [Buffer.text_hole_delete]
  split_ifs <;> rfl

lemma unmoved_say (g : Globals) (msg : String) : Unmoved g (g.say msg) := ⟨rfl, rfl⟩

lemma unmoved_refresh (g : Globals) : Unmoved g g.refresh := by
  rw [Globals.refresh]
  split
  · exact ⟨rfl, rfl⟩
  · exact ⟨rfl, rfl⟩

lemma unmoved_read_in {g : Globals} (fn : List Char) (p : ℤ) {size : ℕ} (found : Found)
    (h : Fitting g size) : Unmoved g (g.read_in fn p size found).2 := by
  have hhole := unmoved_hole (p := p) h
  rw [Globals.read_in]
  cases found.data with
  | none => exact hhole.trans ((unmoved_deleted _ _ _).trans (unmoved_say _ _))
  | some data =>
    have hstore : Unmoved g { g.text_hole_make p size with
        mem := Buffer.store (g.text_hole_make p size).mem p (data.take size) } :=
      ⟨hhole.mark, hhole.block⟩
    dsimp only
    split
    · exact hstore.trans ((unmoved_deleted _ _ _).trans (unmoved_say _ _))
    · exact hstore.trans ⟨rfl, rfl⟩

lemma unmoved_insert_found {g : Globals} (fn : List Char) (p : ℤ) {found : Found}
    (h : Fitting g (found.hole g p)) : Unmoved g (g.insert_found fn p found).2 := by
  rw [Globals.insert_found]
  cases hsize : found.st_size with
  | none => exact ⟨rfl, rfl⟩
  | some size =>
    dsimp only
    split_ifs with hreg hout hopen
    · exact unmoved_say _ _
    · have hhole : found.hole g p = size := by
        rw [Found.hole, if_pos ⟨hreg, by omega, by omega, hopen⟩, hsize]
        rfl
      rw [hhole] at h
      exact unmoved_read_in fn p found h
    · exact unmoved_say _ _
    · exact unmoved_say _ _

lemma unmoved_file_insert {g : Globals} (fn : List Char) (p : ℤ) (ro : Bool)
    (h : HasRoom ℤ (.inr (.file_insert fn p ro)) g) : Unmoved g (g.file_insert fn p ro).2 := by
  have hfound := unmoved_insert_found
    (g := { g with world := { g.world with files := g.world.files.tail } }) fn p h
  obtain ⟨hmark, hblock⟩ := hfound
  rw [Globals.file_insert]
  dsimp only
  split
  · exact ⟨hmark, hblock⟩
  · exact ⟨hmark, hblock⟩

lemma unmoved_file_write (g : Globals) (fn : Option (List Char)) (first last : ℤ) :
    Unmoved g (g.file_write fn first last).2 := by
  simp only [Globals.file_write]
  split_ifs <;> exact ⟨rfl, rfl⟩

lemma typed_not_dangling {α : Type} {f : α → Globals} {x : Option (α × Queue)} :
    Edit.typed f x ≠ .stopped .dangling := by
  rcases x with _ | _
  · nofun
  · nofun

lemma Current.check_context {g : Globals} (hg : Current g) (cmd : Char) :
    Current { g with toMarks := g.toEd.check_context cmd } := by
  intro i p hp
  have hmark : (g.toEd.check_context cmd).mark i = some p := hp
  simp only [Ed.check_context] at hmark
  split at hmark
  · dsimp only at hmark
    split_ifs at hmark
    · exact hg 26 p hmark
    · cases hmark
      rfl
    · exact hg i p hmark
  · exact hg i p hmark

/-- No operation of the editing commands uses a pointer that has lost its allocation, and all
leave the text where it is. -/
lemma Edit.exec_current {β : Type} {o : Edit β} {g : Globals} (hg : Current g)
    (h : HasRoom β (.inl o) g) :
    ¬ Uses β (.inl o) g ∧ ∀ b g', Edit.exec β o g = .done b g' → Current g' ∧ g'.block = g.block := by
  cases o with
  | look | view | status_line | fuel | end_cmd_q | poke | scroll =>
    refine ⟨nofun, fun b g' hr => ?_⟩
    cases hr
    exact ⟨hg, rfl⟩
  | indicate_error =>
    refine ⟨nofun, fun b g' hr => ?_⟩
    cases hr
    split
    · have hmoved := (unmoved_refresh g).trans (unmoved_refresh g.refresh)
      exact ⟨hmoved.current hg, hmoved.block⟩
    · exact ⟨hg, rfl⟩
  | get_one_char | get_input_line =>
    refine ⟨typed_not_dangling, fun b g' hr => ?_⟩
    obtain ⟨q, rfl⟩ := typed_done hr
    exact ⟨hg, rfl⟩
  | stupid_insert p c held =>
    have hmoved := unmoved_insert (p := p) (s := [c]) h
    have hexec : Edit.exec ℤ (.stupid_insert p c held) g = .done (p + 1) (g.insert p [c]) :=
      if_neg fun hc => hc.2 hmoved.block
    refine ⟨fun hu => ?_, fun b g' hr => ?_⟩
    · cases hexec.symm.trans hu
    · cases hexec.symm.trans hr
      exact ⟨hmoved.current hg, hmoved.block⟩
  | string_insert p s =>
    have hmoved := unmoved_insert (p := p) h
    have hexec : Edit.exec ℤ (.string_insert p s) g = .done p (g.insert p s) :=
      if_neg fun hc => hc hmoved.block
    refine ⟨fun hu => ?_, fun b g' hr => ?_⟩
    · cases hexec.symm.trans hu
    · cases hexec.symm.trans hr
      exact ⟨hmoved.current hg, hmoved.block⟩
  | text_hole_delete p q hpq =>
    refine ⟨nofun, fun b g' hr => ?_⟩
    cases hr
    exact ⟨(unmoved_deleted g p q).current hg, (unmoved_deleted g p q).block⟩
  | set_mark i =>
    refine ⟨nofun, fun b g' hr => ?_⟩
    cases hr
    refine ⟨fun j q hq => ?_, rfl⟩
    dsimp only at hq
    split at hq
    · cases hq
      rfl
    · exact hg j q hq
  | check_context cmd =>
    refine ⟨nofun, fun b g' hr => ?_⟩
    cases hr
    exact ⟨hg.check_context cmd, rfl⟩
  | goto_mark i =>
    have hstale := hg.not_stale i
    simp only [Uses, exec_inl, Edit.exec, if_neg hstale]
    split
    · refine ⟨nofun, fun b g' hr => ?_⟩
      cases hr
      exact ⟨hg, rfl⟩
    · refine ⟨nofun, fun b g' hr => ?_⟩
      cases hr
      exact ⟨hg, rfl⟩
  | swap_context =>
    have hstale := hg.not_stale 27
    simp only [Uses, exec_inl, Edit.exec, if_neg hstale]
    split
    · refine ⟨nofun, fun b g' hr => ?_⟩
      cases hr
      refine ⟨fun j q hq => ?_, rfl⟩
      dsimp only at hq
      split_ifs at hq
      · exact hg 26 q hq
      · exact hg 27 q hq
      · exact hg j q hq
    · refine ⟨nofun, fun b g' hr => ?_⟩
      cases hr
      exact ⟨hg, rfl⟩
  | stop e =>
    refine ⟨id, fun b g' hr => ?_⟩
    cases hr

/-- The same holds of the other operations, where the pointers they are given are current. -/
lemma Sys.exec_current {β : Type} {o : Sys β} {g : Globals} (hg : Current g)
    (h : HasRoom β (.inr o) g) (hl : Local β (.inr o) g) :
    ¬ Uses β (.inr o) g ∧ ∀ b g', Sys.exec β o g = .done b g' → Current g' ∧ g'.block = g.block := by
  cases o with
  | set_mode | top | createScreen | rawmode | strerror | touch | leave =>
    refine ⟨by rintro ⟨⟩, fun b g' hr => ?_⟩
    cases hr
    exact ⟨hg, rfl⟩
  | refresh =>
    refine ⟨by rintro ⟨⟩, fun b g' hr => ?_⟩
    cases hr
    exact ⟨(unmoved_refresh g).current hg, (unmoved_refresh g).block⟩
  | remember | repeat_cmd =>
    refine ⟨by rintro ⟨⟩, fun b g' hr => ?_⟩
    cases hr
    split
    · exact ⟨hg, rfl⟩
    · exact ⟨hg, rfl⟩
  | start =>
    refine ⟨by rintro ⟨⟩, fun b g' hr => ?_⟩
    cases hr
    refine ⟨fun i p hp => ?_, rfl⟩
    simp only [Globals.start] at hp
    split at hp
    · cases hp
      rfl
    · exact hg i p hp
  | loaded =>
    refine ⟨by rintro ⟨⟩, fun b g' hr => ?_⟩
    cases hr
    exact ⟨by rintro i p ⟨⟩, rfl⟩
  | hit_return =>
    refine ⟨?_, fun b g' hr => ?_⟩
    · show Sys.exec Unit .hit_return g ≠ .stopped .dangling
      rw [Sys.exec]
      split <;> simp
    · obtain ⟨overrun, q, rfl⟩ := hit_return_done hr
      exact ⟨hg, rfl⟩
  | check p =>
    have hp : p.block = g.block := hl
    simp only [Uses, exec_inr, Sys.exec, if_pos hp]
    refine ⟨by rintro ⟨⟩, fun b g' hr => ?_⟩
    cases hr
    exact ⟨hg, rfl⟩
  | next_line p =>
    have hp : p.block = g.block := hl
    simp only [Uses, exec_inr, Sys.exec, if_pos hp]
    refine ⟨by rintro ⟨⟩, fun b g' hr => ?_⟩
    cases hr
    exact ⟨hg, rfl⟩
  | count_lines q ch =>
    have hq : q.block = g.block := hl
    simp only [Uses, exec_inr, Sys.exec, if_pos hq]
    refine ⟨by rintro ⟨⟩, fun b g' hr => ?_⟩
    cases hr
    exact ⟨hg, rfl⟩
  | mark_line i =>
    simp only [Uses, exec_inr, Sys.exec]
    cases hmark : g.mark i with
    | none =>
      refine ⟨by rintro ⟨⟩, fun b g' hr => ?_⟩
      cases hr
      exact ⟨hg, rfl⟩
    | some q =>
      have hq := hg i q hmark
      dsimp only
      rw [if_neg fun hc => hc.1 hq]
      refine ⟨by rintro ⟨⟩, fun b g' hr => ?_⟩
      cases hr
      exact ⟨hg, rfl⟩
  | file_size fn =>
    simp only [Uses, exec_inr, Sys.exec]
    split
    · refine ⟨by rintro ⟨⟩, fun b g' hr => ?_⟩
      cases hr
      exact ⟨hg, rfl⟩
    · refine ⟨by rintro ⟨⟩, fun b g' hr => ?_⟩
      cases hr
      exact ⟨hg, rfl⟩
    · refine ⟨by rintro ⟨⟩, fun b g' hr => ?_⟩
      cases hr
      exact ⟨hg, rfl⟩
  | fresh_buffer => exact hl.elim
  | file_insert fn p ro =>
    have hmoved := unmoved_file_insert fn p ro h
    refine ⟨by rintro ⟨⟩, fun b g' hr => ?_⟩
    cases hr
    exact ⟨hmoved.current hg, hmoved.block⟩
  | file_write colon leaving fn first last =>
    have hmoved := unmoved_file_write g fn first last
    refine ⟨by rintro ⟨⟩, fun b g' hr => ?_⟩
    cases hr
    split
    · exact ⟨hmoved.current hg, hmoved.block⟩
    · exact ⟨hmoved.current hg, hmoved.block⟩

variable {α : Type} {g : Globals}

/-- A procedure that has room and makes no new allocation uses no pointer that has lost its own,
and leaves the text where it is. -/
lemma run_current {p : Proc α} (hg : Current g) (hroom : p.Along exec HasRoom g)
    (hlocal : p.Along exec Local g) :
    p.Along exec (fun β o g => ¬ Uses β o g) g ∧
      ∀ a g', p.run exec g = .done a g' → Current g' ∧ g'.block = g.block := by
  have hop : ∀ (β : Type) (o : Op β) (t : Globals), Current t ∧ t.block = g.block →
      HasRoom β o t ∧ Local β o t →
      ¬ Uses β o t ∧ ∀ b t', exec β o t = .done b t' → Current t' ∧ t'.block = g.block := by
    intro β o t ht ho
    obtain ⟨hcur, hblock⟩ := ht
    have hexec : ¬ Uses β o t ∧ ∀ b t', exec β o t = .done b t' →
        Current t' ∧ t'.block = t.block := by
      cases o with
      | inl o => exact Edit.exec_current hcur ho.1
      | inr o => exact Sys.exec_current hcur ho.1 ho.2
    refine ⟨hexec.1, fun b t' hr => ?_⟩
    obtain ⟨hcur', hblock'⟩ := hexec.2 b t' hr
    exact ⟨hcur', hblock'.trans hblock⟩
  have hboth := Program.along_and hroom hlocal
  refine ⟨Program.along_keeps hop ⟨hg, rfl⟩ hboth, ?_⟩
  have hends := Program.run_ends (I := fun t => Current t ∧ t.block = g.block)
    (E := fun _ => True) (fun β o t ht ho => Outcome.ends_iff_of_done.mpr (hop β o t ht ho).2)
    ⟨hg, rfl⟩ hboth
  exact Outcome.ends_iff_of_done.mp hends

lemma local_edit (p : Cmd α) : (edit p).Along exec Local g := along_edit (fun _ _ _ => trivial) p

/-- Neither a pointer that is kept nor a new allocation. -/
def Keeping : ∀ β : Type, Sys β → Prop
  | _, .check _ | _, .next_line _ | _, .count_lines _ _ | _, .fresh_buffer _ _ => False
  | _, _ => True

lemma local_of_keeping {p : Proc α} (h : p.All (Parts Keeping)) : p.Along exec Local g := by
  refine h.along ?_ g
  intro β o g ho
  cases o with
  | inl o => trivial
  | inr o =>
    cases o with
    | check | next_line | count_lines | fresh_buffer => exact ho.elim
    | _ => trivial

/-! ## Commands that keep a pointer -/

lemma local_shift_lines (c : Char) (n : ℕ) (p : Ptr) (hg : Current g) (hp : p.block = g.block)
    (hroom : (shift_lines c n p).Along exec HasRoom g) :
    (shift_lines c n p).Along exec Local g := by
  induction n generalizing p g with
  | zero => trivial
  | succ n ih =>
    rw [shift_lines] at hroom ⊢
    have hcheck : (sys (.check p)).Along exec Local g := (along_sys _).mpr hp
    refine hcheck.bind fun _ g₁ hr₁ => ?_
    have hroom₁ := hroom.rest hr₁
    obtain ⟨hg₁, hb₁⟩ := (run_current hg hroom.first hcheck).2 _ _ hr₁
    -- whichever way the line is edited, the text has not moved
    have hrest : ∀ g₂, Current g₂ → g₂.block = g₁.block →
        ((sys (.next_line p)).bind (shift_lines c n)).Along exec HasRoom g₂ →
        ((sys (.next_line p)).bind (shift_lines c n)).Along exec Local g₂ := by
      intro g₂ hg₂ hb₂ hroom₂
      have hp₂ : p.block = g₂.block := hp.trans (hb₂.trans hb₁).symm
      have hnext : (sys (.next_line p)).Along exec Local g₂ := (along_sys _).mpr hp₂
      refine hnext.bind fun p' g₃ hr₃ => ?_
      obtain ⟨hg₃, -⟩ := (run_current hg₂ hroom₂.first hnext).2 _ _ hr₃
      refine ih p' hg₃ ?_ (hroom₂.rest hr₃)
      simp only [run_sys, Sys.exec, if_pos hp₂] at hr₃
      cases hr₃
      rfl
    split_ifs at hroom₁ ⊢
    · refine (local_edit _).bind fun _ g₂ hr₂ => ?_
      obtain ⟨hg₂, hb₂⟩ := (run_current hg₁ hroom₁.first (local_edit _)).2 _ _ hr₂
      exact hrest g₂ hg₂ hb₂ (hroom₁.rest hr₂)
    · refine (local_edit _).bind fun _ g₂ hr₂ => ?_
      obtain ⟨hg₂, hb₂⟩ := (run_current hg₁ hroom₁.first (local_edit _)).2 _ _ hr₂
      exact hrest g₂ hg₂ hb₂ (hroom₁.rest hr₂)

lemma local_shift (c : Char) (hg : Current g) (hroom : (shift c).Along exec HasRoom g) :
    (shift c).Along exec Local g := by
  rw [shift] at hroom ⊢
  refine (local_edit _).bind fun s g₁ hr₁ => ?_
  obtain ⟨hg₁, -⟩ := (run_current hg hroom.first (local_edit _)).2 _ _ hr₁
  have hroom₁ := hroom.rest hr₁
  refine (local_edit _).bind fun c1 g₂ hr₂ => ?_
  obtain ⟨hg₂, -⟩ := (run_current hg₁ hroom₁.first (local_edit _)).2 _ _ hr₂
  have hroom₂ := hroom₁.rest hr₂
  refine (local_edit _).bind fun r g₃ hr₃ => ?_
  obtain ⟨hg₃, -⟩ := (run_current hg₂ hroom₂.first (local_edit _)).2 _ _ hr₃
  have hroom₃ := hroom₂.rest hr₃
  refine (local_edit _).bind fun _ g₄ hr₄ => ?_
  obtain ⟨hg₄, -⟩ := (run_current hg₃ hroom₃.first (local_edit _)).2 _ _ hr₄
  have hroom₄ := hroom₃.rest hr₄
  refine (local_edit _).bind fun t g₅ hr₅ => ?_
  have hroom₅ := hroom₄.rest hr₅
  cases hr₅
  have hlines := local_shift_lines c _ _ hg₄ rfl hroom₅.first
  exact hlines.bind fun _ _ _ => (local_edit _).bind fun _ _ _ => local_edit _

lemma local_colon_read (hg : Current g) (l : Line) (hroom : (colon_read l).Along exec HasRoom g) :
    (colon_read l).Along exec Local g := by
  rw [colon_read] at hroom ⊢
  by_cases hargs : l.args = []
  · rw [if_pos hargs]
    exact local_edit _
  rw [if_neg hargs] at hroom ⊢
  refine (local_edit _).bind fun s g₁ hr₁ => ?_
  have hroom₁ := hroom.rest hr₁
  cases hr₁
  refine Program.Along.bind ((along_sys _).mpr trivial) fun ch g₂ hr₂ => ?_
  obtain ⟨-, hb₂⟩ := (run_current hg hroom₁.first ((along_sys _).mpr trivial)).2 _ _ hr₂
  by_cases hch : 0 ≤ ch
  · rw [if_pos hch]
    refine Program.Along.bind ((along_sys _).mpr hb₂.symm) fun li g₃ _ => ?_
    refine (local_edit _).bind fun _ _ _ => ?_
    by_cases hpos : 0 < ch
    · rw [if_pos hpos]
      exact (local_edit _).bind fun _ _ _ => (along_sys _).mpr trivial
    · rw [if_neg hpos]
      trivial
  · rw [if_neg hch]
    trivial

/-! ## Commands that load a file -/

section Inserting

variable {P : ∀ β : Type, Edit β → Prop} (hlook : P Ed .look)
  (hinsert : ∀ p c held, P ℤ (.stupid_insert p c held))

include hlook hinsert in
lemma all_indent (n : ℕ) (q p : ℤ) : (indent n q p).All P := by
  induction n generalizing q p with
  | zero => trivial
  | succ n ih =>
    rw [indent]
    refine Program.All.bind (p := look) ⟨hlook, fun _ => trivial⟩ fun s => ?_
    split
    · exact Program.All.bind ⟨hinsert _ _ _, fun _ => trivial⟩ fun p' => ih _ _
    · trivial

include hlook hinsert in
lemma all_plain_insert (hdelete : ∀ p q h, P ℤ (.text_hole_delete p q h)) (p : ℤ) (c : Char) :
    (plain_insert p c).All P := by
  rw [plain_insert]
  refine Program.All.bind (p := look) ⟨hlook, fun _ => trivial⟩ fun s => ?_
  by_cases he : s.erases c
  · rw [if_pos he]
    split
    · exact ⟨hdelete _ _ _, fun _ => trivial⟩
    · trivial
  · rw [if_neg he]
    refine Program.All.bind ⟨hinsert _ _ _, fun _ => trivial⟩ fun p' => ?_
    refine Program.All.bind (p := look) ⟨hlook, fun _ => trivial⟩ fun t => ?_
    generalize (if c = '\r' then '\n' else c) = c'
    split
    · exact all_indent hlook hinsert _ _ _
    · trivial

end Inserting

/-- The operation follows no pointer that is kept. -/
def Blind : ∀ β : Type, Op β → Prop
  | _, .inl .look | _, .inl (.view _) => True
  | _, .inl (.stupid_insert _ _ _) | _, .inl (.text_hole_delete _ _ _) => True
  | _, .inl _ => False
  | _, .inr o => o.Loads

lemma Blind.not_uses {β : Type} {o : Op β} (ho : Blind β o) (h : HasRoom β o g) :
    ¬ Uses β o g := by
  cases o with
  | inl o =>
    cases o with
    | look | view | text_hole_delete => rintro ⟨⟩
    | stupid_insert p c held =>
      have hmoved := unmoved_insert (p := p) (s := [c]) h
      have hexec : Edit.exec ℤ (.stupid_insert p c held) g = .done (p + 1) (g.insert p [c]) :=
        if_neg fun hc => hc.2 hmoved.block
      intro hu
      cases hexec.symm.trans hu
    | _ => exact ho.elim
  | inr o =>
    cases o with
    | file_size fn =>
      simp only [Uses, exec_inr, Sys.exec]
      split <;> rintro ⟨⟩
    | fresh_buffer | loaded | file_insert => rintro ⟨⟩
    | _ => exact ho.elim

lemma blind_init_text_buffer (fn : Option (List Char)) (lost : Option Bool) :
    (init_text_buffer fn lost).All Blind := by
  have hsys : ∀ {β γ : Type} {o : Sys β} {f : β → Proc γ}, o.Loads → (∀ b, (f b).All Blind) →
      (sys o >>= f).All Blind := fun h hf => Program.All.bind (p := sys _) ⟨h, fun _ => trivial⟩ hf
  have hloaded : ∀ rc : ℤ, (do sys .loaded; return rc : Proc ℤ).All Blind :=
    fun rc => hsys trivial fun _ => trivial
  rw [init_text_buffer]
  refine hsys trivial fun size => hsys trivial fun _ => ?_
  refine Program.All.bind (p := edit _) ⟨trivial, fun _ => trivial⟩ fun _ => ?_
  dsimp only
  split
  · refine Program.All.bind (p := edit _) ?_ fun _ => hloaded 0
    have hplain := all_plain_insert (P := fun β o => Blind β (.inl o)) trivial
      (fun _ _ _ => trivial) (fun _ _ _ => trivial) 0 '\n'
    exact hplain.lift_of (Q := Blind) (φ := fun _ o => .inl o) fun _ _ h => h
  · exact hsys trivial fun rc => hloaded rc

/-- A procedure that has room uses no pointer that has lost its allocation, and leaves none. -/
structure Sound (p : Proc α) (g : Globals) : Prop where
  along : p.Along exec (fun β o g => ¬ Uses β o g) g
  current : ∀ a g', p.run exec g = .done a g' → Current g'

namespace Sound

lemma bind {β : Type} {p : Proc α} {f : α → Proc β} (hp : Sound p g)
    (hf : ∀ a g', p.run exec g = .done a g' → Current g' → Sound (f a) g') :
    Sound (p.bind f) g := by
  refine ⟨hp.along.bind fun a g' hr => (hf a g' hr (hp.current a g' hr)).along, fun b g₂ hr => ?_⟩
  obtain ⟨a, g₁, hr₁, hr₂⟩ := (Program.run_bind_eq_done exec).mp hr
  exact (hf a g₁ hr₁ (hp.current a g₁ hr₁)).current b g₂ hr₂

/-- A procedure that makes no new allocation. -/
lemma of_local {p : Proc α} (hg : Current g) (hroom : p.Along exec HasRoom g)
    (hlocal : p.Along exec Local g) : Sound p g := by
  obtain ⟨halong, hcur⟩ := run_current hg hroom hlocal
  exact ⟨halong, fun a g' hr => (hcur a g' hr).1⟩

lemma of_edit {p : Cmd α} (hg : Current g) (hroom : (edit p).Along exec HasRoom g) :
    Sound (edit p) g := of_local hg hroom (local_edit p)

lemma of_keeping {p : Proc α} (hg : Current g) (hroom : p.Along exec HasRoom g)
    (h : p.All (Parts Keeping)) : Sound p g := of_local hg hroom (local_of_keeping h)

lemma pure (hg : Current g) (a : α) : Sound (pure a : Proc α) g := by
  refine ⟨trivial, fun b g' hr => ?_⟩
  cases hr
  exact hg

end Sound

lemma sound_init_text_buffer (fn : Option (List Char)) (lost : Option Bool)
    (hroom : (init_text_buffer fn lost).Along exec HasRoom g) :
    Sound (init_text_buffer fn lost) g := by
  have hblind : (init_text_buffer fn lost).Along exec (fun β o _ => Blind β o) g :=
    (blind_init_text_buffer fn lost).along (fun _ _ _ h => h) g
  refine ⟨Program.along_mono (fun _ _ _ h => h.2.not_uses h.1)
    (Program.along_and hroom hblind), fun rc g' hr => ?_⟩
  have hloaded : ∀ (rc rc' : ℤ) (t t' : Globals),
      (do sys .loaded; return rc : Proc ℤ).run exec t = .done rc' t' → Current t' := by
    intro rc rc' t t' hr
    cases hr
    nofun
  rw [init_text_buffer] at hr
  obtain ⟨size, g₁, -, hr₁⟩ := (Program.run_bind_eq_done exec).mp hr
  obtain ⟨_, g₂, -, hr₂⟩ := (Program.run_bind_eq_done exec).mp hr₁
  obtain ⟨_, g₃, -, hr₃⟩ := (Program.run_bind_eq_done exec).mp hr₂
  dsimp only at hr₃
  split at hr₃
  · obtain ⟨_, g₄, -, hr₄⟩ := (Program.run_bind_eq_done exec).mp hr₃
    exact hloaded _ _ _ _ hr₄
  · obtain ⟨_, g₄, -, hr₄⟩ := (Program.run_bind_eq_done exec).mp hr₃
    exact hloaded _ _ _ _ hr₄

/-! ## The commands -/

lemma sound_colon_edit (hg : Current g) (l : Line) (hroom : (colon_edit l).Along exec HasRoom g) :
    Sound (colon_edit l) g := by
  rw [colon_edit] at hroom ⊢
  refine Sound.bind (.of_edit hg hroom.first) fun s g₁ hr₁ hg₁ => ?_
  have hroom₁ := hroom.rest hr₁
  by_cases hmod : s.file_modified ≠ 0 ∧ ¬ l.useforce
  · rw [if_pos hmod] at hroom₁ ⊢
    exact .of_edit hg₁ hroom₁
  rw [if_neg hmod] at hroom₁ ⊢
  by_cases hname : l.args = [] ∧ (s.current_filename.getD []) = []
  · rw [if_pos hname] at hroom₁ ⊢
    exact .of_edit hg₁ hroom₁
  rw [if_neg hname] at hroom₁ ⊢
  refine Sound.bind (sound_init_text_buffer _ _ hroom₁.first) fun rc g₂ hr₂ hg₂ => ?_
  refine .of_keeping hg₂ (hroom₁.rest hr₂) ?_
  split
  · refine parts_then fun _ => parts_then fun t => ?_
    exact parts_after trivial fun size => parts_edit _
  · exact parts_pure ()

lemma sound_line_exec (hg : Current g) (l : Line) (hroom : l.exec.Along exec HasRoom g) :
    Sound l.exec g := by
  by_cases hedit : ColonCmd.of l.cmd = .edit
  · rw [Line.exec, hedit] at hroom ⊢
    exact (sound_colon_edit hg l hroom.first).bind fun _ _ _ hg₁ => .pure hg₁ _
  by_cases hread : ColonCmd.of l.cmd = .read
  · rw [Line.exec, hread] at hroom ⊢
    have hlocal := local_colon_read hg l hroom.first
    exact (Sound.of_local hg hroom.first hlocal).bind fun _ _ _ hg₁ => .pure hg₁ _
  refine .of_keeping hg hroom (parts_line_exec l (fun h => absurd h hedit) ?_
    (fun h => absurd h hread) fun _ => ⟨trivial, trivial, trivial⟩)
  intro _ β o ho
  cases o with
  | strerror | file_write | leave => trivial
  | _ => exact ho.elim

lemma sound_colon (hg : Current g) (buf : List Char) (hroom : (colon buf).Along exec HasRoom g) :
    Sound (colon buf) g := by
  rw [colon] at hroom ⊢
  by_cases hbuf : buf = []
  · rw [if_pos hbuf] at hroom ⊢
    exact .of_edit hg hroom
  rw [if_neg hbuf] at hroom ⊢
  have haddr := Sound.of_keeping hg hroom.first (parts_get_address (fun _ => trivial) _)
  refine haddr.bind fun r g₁ hr₁ hg₁ => ?_
  have hroom₁ := hroom.rest hr₁
  refine Sound.bind (sound_line_exec hg₁ _ hroom₁.first) fun b g₂ hr₂ hg₂ => ?_
  have hroom₂ := hroom₁.rest hr₂
  cases b with
  | true => exact .of_edit hg₂ hroom₂
  | false => exact .pure hg₂ _

lemma sound_switch (hg : Current g) (c : Char) (hroom : (switch c).Along exec HasRoom g) :
    Sound (switch c) g := by
  by_cases hcolon : key_of c = .colon
  · rw [switch, hcolon] at hroom ⊢
    refine Sound.bind (.of_edit hg hroom.first) fun p g₁ hr₁ hg₁ => ?_
    have hroom₁ := hroom.rest hr₁
    refine (sound_colon hg₁ p hroom₁.first).bind fun _ g₂ hr₂ hg₂ => ?_
    exact Sound.bind (.of_edit hg₂ (hroom₁.rest hr₂).first) fun _ _ _ hg₃ => .pure hg₃ _
  by_cases hshift : key_of c = .shift
  · rw [switch, hshift] at hroom ⊢
    have hlocal := local_shift c hg hroom.first
    exact (Sound.of_local hg hroom.first hlocal).bind fun _ _ _ hg₁ => .pure hg₁ _
  refine .of_keeping hg hroom (parts_switch (fun _ => trivial) c hcolon ?_ (fun _ => trivial)
    (fun _ => ⟨trivial, trivial⟩) (fun _ => trivial) fun h => absurd h hshift)
  intro _ β o ho
  cases o with
  | strerror | file_write | leave => trivial
  | _ => exact ho.elim

lemma sound_do_cmd (hg : Current g) (c : Char) (hroom : (do_cmd c).Along exec HasRoom g) :
    Sound (do_cmd c) g := by
  rw [do_cmd] at hroom ⊢
  refine Sound.bind (.of_edit hg hroom.first) fun s g₁ hr₁ hg₁ => ?_
  have hroom₁ := hroom.rest hr₁
  by_cases hcmd : cursor_key c ∨ s.cmd_mode = .command
  · rw [if_pos hcmd] at hroom₁ ⊢
    refine Sound.bind (sound_switch hg₁ c hroom₁.first) fun k g₂ hr₂ hg₂ => ?_
    have hroom₂ := hroom₁.rest hr₂
    cases k with
    | none => exact .pure hg₂ _
    | some c => exact .of_edit hg₂ hroom₂
  rw [if_neg hcmd] at hroom₁ ⊢
  refine .of_keeping hg₁ hroom₁ ?_
  split
  · exact (parts_replace_key trivial (fun _ => trivial) c).bind fun _ => parts_edit _
  · exact (parts_insert_key trivial (fun _ => trivial) c).bind fun _ => parts_edit _

lemma sound_turn (hg : Current g) (hroom : turn.Along exec HasRoom g) : Sound turn g := by
  rw [turn] at hroom ⊢
  have hrefresh : refresh.All (Parts Keeping) := parts_sys trivial
  refine Sound.bind (.of_keeping hg hroom.first hrefresh) fun _ g₁ hr₁ hg₁ => ?_
  have hroom₁ := hroom.rest hr₁
  refine Sound.bind (.of_edit hg₁ hroom₁.first) fun c g₂ hr₂ hg₂ => ?_
  have hroom₂ := hroom₁.rest hr₂
  refine Sound.bind (.of_edit hg₂ hroom₂.first) fun _ g₃ hr₃ hg₃ => ?_
  have hroom₃ := hroom₂.rest hr₃
  refine Sound.bind (.of_edit hg₃ hroom₃.first) fun _ g₄ hr₄ hg₄ => ?_
  have hroom₄ := hroom₃.rest hr₄
  refine Sound.bind (.of_keeping hg₄ hroom₄.first (parts_sys trivial)) fun _ g₅ hr₅ hg₅ => ?_
  exact sound_do_cmd hg₅ c (hroom₄.rest hr₅)

lemma sound_event (hg : Current g) (e : Event) (hroom : e.proc.Along exec HasRoom g) :
    Sound e.proc g := by
  cases e with
  | file fn =>
    simp only [Event.proc, edit_file] at hroom ⊢
    refine Sound.bind (.of_keeping hg hroom.first (parts_sys trivial)) fun _ g₁ hr₁ hg₁ => ?_
    have hroom₁ := hroom.rest hr₁
    refine Sound.bind (.of_keeping hg₁ hroom₁.first (parts_sys trivial)) fun _ g₂ hr₂ hg₂ => ?_
    have hroom₂ := hroom₁.rest hr₂
    refine Sound.bind (sound_init_text_buffer fn none hroom₂.first) fun _ g₃ hr₃ hg₃ => ?_
    exact .of_keeping hg₃ (hroom₂.rest hr₃) (parts_sys trivial)
  | command memory =>
    simp only [Event.proc, initial_cmd] at hroom ⊢
    exact Sound.bind (.of_edit hg hroom.first) fun _ g₁ hr₁ hg₁ =>
      sound_colon hg₁ _ (hroom.rest hr₁)
  | key => exact sound_turn hg hroom

/-! ## Runs -/

/-- An event that is taken meets `G` in each operation. -/
def Meets (G : ∀ β : Type, Op β → Globals → Prop) (g : Globals) (e : Event) : Prop :=
  e.admitted g → e.proc.Along exec G g

instance {G : ∀ β : Type, Op β → Globals → Prop} [∀ β o g, Decidable (G β o g)] (g : Globals)
    (e : Event) : Decidable (Meets G g e) := inferInstanceAs (Decidable (_ → _))

lemma step_current {e : Event} (hg : Current g) (hroom : Meets HasRoom g e) :
    Meets (fun β o g => ¬ Uses β o g) g e ∧ ∀ g', step g e = some g' → Current g' := by
  refine ⟨fun ha => (sound_event hg e (hroom ha)).along, fun g' hs => ?_⟩
  rw [step] at hs
  split at hs
  · rename_i ha
    obtain ⟨u, hr⟩ := Outcome.state_eq_some.mp hs
    exact (sound_event hg e (hroom ha)).current u g' hr
  · cases hs

lemma step_same {s t : Globals} {e : Event} (h : SameText s t) (hs : Meets HasRoom s e)
    (ht : Meets HasRoom t e) : Option.Rel SameText (step s e) (step t e) := by
  have hadm : e.admitted t ↔ e.admitted s := by
    rw [h]
    cases e <;> rfl
  rw [step, step]
  by_cases ha : e.admitted s
  · rw [if_pos ha, if_pos (hadm.mpr ha)]
    have hrun : (e.proc.run exec s).Rel SameText (e.proc.run exec t) := by
      refine Program.run_related ?_ h (hs ha) (ht (hadm.mpr ha))
      intro β o s t hst ho ho'
      rw [hst] at ho' ⊢
      exact exec_same o s t.text_size ho ho'
    generalize e.proc.run exec s = x at hrun ⊢
    generalize e.proc.run exec t = y at hrun ⊢
    cases hrun with
    | done h' => exact .some h'
    | stopped => exact .none
  · rw [if_neg ha, if_neg (mt hadm.mp ha)]
    exact .none

variable {mem : ℤ → Char} {base : ℕ → ℤ} {keys : List Char} {world : World} {readonly : Bool}
variable {optind argc : ℤ}

/-- No mark has lost its allocation in a run in which every hole fits. -/
theorem reach_current {s : Globals}
    (h : Reach step (Meets HasRoom) (vi_main mem base keys world readonly optind argc) s) :
    Current s := by
  refine h.induction_on nofun ?_
  intro g e g' hg hroom hs
  exact (step_current hg hroom).2 g' hs

/-- As long as every hole fits with a byte to spare, no pointer is used that has lost its
allocation, and how much room there is makes no difference to any sequence of commands. -/
theorem room_makes_no_difference {s : Globals}
    (h : Reach step (Meets HasRoom) (vi_main mem base keys world readonly optind argc) s) (n : ℤ)
    (es : List Event) (hs : Throughout step (Meets HasRoom) s es)
    (ht : Throughout step (Meets HasRoom) { s with text_size := n } es) :
    Throughout step (Meets fun β o g => ¬ Uses β o g) s es ∧
      Throughout step (Meets fun β o g => ¬ Uses β o g) { s with text_size := n } es ∧
      Option.Rel SameText (replay step s es) (replay step { s with text_size := n } es) := by
  have hcur := reach_current h
  have hkeeps : ∀ t : Globals, Current t → Throughout step (Meets HasRoom) t es →
      Throughout step (Meets fun β o g => ¬ Uses β o g) t es := fun t ht hroom =>
    throughout_keeps (fun _ _ hg ho => step_current hg ho) ht hroom
  have hstep : ∀ (s t : Globals) (e : Event), SameText s t → Meets HasRoom s e →
      Meets HasRoom t e → Option.Rel SameText (step s e) (step t e) :=
    fun _ _ _ hst hs ht => step_same hst hs ht
  have hsame : SameText s { s with text_size := n } := rfl
  refine ⟨hkeeps s hcur hs, hkeeps _ hcur ht, ?_⟩
  exact replay_related hstep hsame hs ht

/-- An editor for a file of two lines, with the keys to come and a file that may be read. -/
def with_file (keys : List Char) (found : Found) : Globals :=
  vi_main (fun _ => NUL) (fun n => 100000 * n) keys
    { busy := []
      sizes := []
      erase := []
      file_sizes := [some 4]
      files := [⟨some 4, true, true, some ['a', '\n', 'b', '\n'], false, ""⟩, found]
      sinks := []
      behind := []
      fuel := 10 }
    false 0 1

theorem room_makes_no_difference_typed :
    ∃ s : Globals, s.content = ['a', '\n', 'b', '\n'] ∧ s.text_size = 10244 ∧
      Throughout step (Meets fun β o g => ¬ Uses β o g) s [.key, .key, .key] ∧
      Option.Rel SameText (replay step s [.key, .key, .key])
        (replay step { s with text_size := 20000 } [.key, .key, .key]) := by
  have hrun : ((replay (fun g e => if decide (Meets HasRoom g e) then step g e else none)
      (with_file ['i', 'z', '\x1b'] ⟨none, false, false, none, false, ""⟩)
      [.file (some ['f'])]).map fun s => (s.content, s.text_size,
        decide (Throughout step (Meets HasRoom) s [.key, .key, .key]),
        decide (Throughout step (Meets HasRoom) { s with text_size := 20000 }
          [.key, .key, .key]))) =
      some (['a', '\n', 'b', '\n'], 10244, true, true) := by decide +kernel
  obtain ⟨s, hs, hd⟩ := Option.map_eq_some_iff.mp hrun
  obtain ⟨hcontent, hd⟩ := Prod.mk.inj hd
  obtain ⟨hsize, hd⟩ := Prod.mk.inj hd
  obtain ⟨hroom, hroom'⟩ := Prod.mk.inj hd
  have hreach : Reach step (Meets HasRoom)
      (with_file ['i', 'z', '\x1b'] ⟨none, false, false, none, false, ""⟩) s :=
    Reach.of_checked (fun _ _ h => of_decide_eq_true h) .init hs
  obtain ⟨huses, -, hrel⟩ := room_makes_no_difference hreach 20000 [.key, .key, .key]
    (of_decide_eq_true hroom) (of_decide_eq_true hroom')
  exact ⟨s, hcontent, hsize, huses, hrel⟩

/-- `:r` of a file of 10240 bytes, of which one is read, moves the text, and then counts lines
through the pointer it kept.  With more room it comes to its end. -/
theorem read_after_move : ∃ s : Globals,
    Reach step (fun _ _ => True) (with_file [':', 'r', ' ', 'g', '\n']
      ⟨some 10240, true, true, some ['z'], false, ""⟩) s ∧
    ¬ Throughout step (Meets fun β o g => ¬ Uses β o g) s [.key] ∧
    ¬ Option.Rel SameText (replay step s [.key])
      (replay step { s with text_size := s.text_size + 10240 } [.key]) := by
  have hrun : ((replay step (with_file [':', 'r', ' ', 'g', '\n']
      ⟨some 10240, true, true, some ['z'], false, ""⟩) [.file (some ['f'])]).map fun s =>
        (decide (Throughout step (Meets fun β o g => ¬ Uses β o g) s [.key]),
        (replay step s [.key]).isSome,
        (replay step { s with text_size := s.text_size + 10240 } [.key]).isSome)) =
      some (false, false, true) := by decide +kernel
  obtain ⟨s, hs, hd⟩ := Option.map_eq_some_iff.mp hrun
  obtain ⟨huses, hd⟩ := Prod.mk.inj hd
  obtain ⟨hnone, hsome⟩ := Prod.mk.inj hd
  refine ⟨s, Reach.of_replay .init hs, of_decide_eq_false huses, fun hrel => ?_⟩
  generalize replay step s [.key] = x at hrel hnone
  generalize replay step { s with text_size := s.text_size + 10240 } [.key] = y at hrel hsome
  cases hrel with
  | some => cases hnone
  | none => cases hsome

end EspLinux.Vi
