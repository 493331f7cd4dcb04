import EspLinux.Vi.LineNumbers
import EspLinux.Vi.Room

/-!
# vi: reading a file into the text

`file_insert` opens a hole of the size of the file, reads into it, and closes what is left of it
when less was read.  The hole that is left begins behind what was read, but it is closed only up to
its own length less what was read, counted from where the hole began.
-/

namespace EspLinux.Vi

open Lib Buffer

variable {g : Globals} {p : ℤ} {n : ℕ} {found : Found}

/-- What is read of a file of the size `n`. -/
def Found.read (found : Found) (n : ℕ) : List Char := (found.data.getD []).take n

/-- The file is read completely, or nothing of it; or an error is met where there is a hole to
close, or where closing none moves nothing. -/
def ReadsWell (b : Buffer) (p : ℤ) (n : ℕ) : Option (List Char) → Prop
  | some data => n ≤ data.length ∨ data = []
  | none => 0 < n ∨ p = 0 ∨ ∀ i, p - 1 ≤ i → i < b.end_ - 2 → b.mem i = b.mem (i + 2)

/-- Screen, marks and registers are as before, and so is the cursor. -/
def OnlyText (g g' : Globals) : Prop :=
  g'.toScreen = g.toScreen ∧ g'.toMarks = g.toMarks ∧
    g'.toView = { g.toView with readonly_mode := g'.readonly_mode }

/-! ## The hole -/

/-- A hole that is closed again leaves no trace. -/
lemma content_hole_closed (hn : 0 < n) (hp : 0 ≤ p) (hend : p ≤ g.end_) :
    ((g.text_hole_make p n).deleted p (p + n - 1)).content = g.content := by
  have hmake := Globals.end_text_hole_make g p n
  have hlen := g.length_content
  have htake : (g.content.take p.toNat).length = p.toNat := by
    rw [List.length_take]
    omega
  have hskip : (p + n - 1 + 1).toNat = p.toNat + n := by omega
  have hhole : (g.content.take p.toNat ++ List.replicate n ' ').length = p.toNat + n := by
    rw [List.length_append, htake, List.length_replicate]
  rw [Globals.content_deleted hp (by omega) (by omega), Globals.content_text_hole_make hp hend, hskip,
    List.drop_left' hhole, List.append_assoc, List.take_left' htake, List.take_append_drop]

/-- A hole of no size, closed from one character before it, takes the text behind it two characters
back. -/
lemma content_no_hole_closed (hp : 0 ≤ p) (hend : p ≤ g.end_) :
    ((g.text_hole_make p (0 : ℕ)).deleted p (p + (0 : ℕ) - 1)).content = g.content ↔
      p = 0 ∨ ∀ i, p - 1 ≤ i → i < g.end_ - 2 → g.mem i = g.mem (i + 2) := by
  have hmake : g.text_hole_make p (0 : ℕ) = g := by
    rw [Globals.text_hole_make, if_neg (by simp), Buffer.hole, if_pos (by simp)]
  have hq : p + (0 : ℕ) - 1 < p := by
    push_cast
    omega
  rw [hmake]
  show (g.toBuffer.text_hole_delete p (p + (0 : ℕ) - 1)).2.content = g.content ↔ _
  simp only [Buffer.text_hole_delete, if_pos hq]
  by_cases hout : p + 1 < 0 ∨ g.end_ < p + 1 ∨ p + (0 : ℕ) - 1 < 0 ∨ g.end_ ≤ p + (0 : ℕ) - 1
  · rw [if_pos hout]
    push_cast at hout
    refine iff_of_true rfl ?_
    obtain hzero | hlast : p = 0 ∨ g.end_ ≤ p := by omega
    · exact .inl hzero
    · exact .inr fun i hi hi' => by omega
  · rw [if_neg hout]
    push_cast at hout ⊢
    have hsize : g.end_ - (p + 0 - 1 - p + 1) = g.end_ := by omega
    rw [hsize, if_neg (by omega)]
    have hmem : ∀ i, (if g.end_ ≤ p + 1 then g.mem
        else memmove g.mem (p + 0 - 1) (p + 1) (g.end_ - (p + 1))) i =
          if p - 1 ≤ i ∧ i < g.end_ - 2 then g.mem (i + 2) else g.mem i := by
      intro i
      by_cases hlast : g.end_ ≤ p + 1
      · rw [if_pos hlast, if_neg (by omega)]
      · have hback : i - (p + 0 - 1) + (p + 1) = i + 2 := by omega
        have hiff : p + 0 - 1 ≤ i ∧ i < p + 0 - 1 + (g.end_ - (p + 1)) ↔
            p - 1 ≤ i ∧ i < g.end_ - 2 := by omega
        rw [if_neg hlast, memmove, hback, if_congr hiff rfl rfl]
    dsimp only
    refine Iff.trans (content_eq_iff ?_) ?_
    · rfl
    rw [or_iff_right (by omega)]
    constructor
    · intro h i hi hi'
      have hsame := (hmem i).symm.trans (h i (by omega) (by omega))
      rw [if_pos ⟨hi, hi'⟩] at hsame
      exact hsame.symm
    · intro h i h0 hi
      refine (hmem i).trans ?_
      split
      · rename_i hin
        exact (h i hin.1 hin.2).symm
      · rfl

/-- When some but not all has been read, the text is left too long. -/
lemma partly_closed_ne {g₁ : Globals} {e : ℤ} {c : ℕ} {l : List Char} (hend : g₁.end_ = e + n)
    (he : 0 ≤ e) (hc : 0 < c) (hn : c < n) (hl : (l.length : ℤ) = e + c) :
    (g₁.deleted (p + c) (p + (n - c) - 1)).content ≠ l := by
  intro h
  have hlen := congrArg List.length h
  rw [length_content] at hlen
  have hsize : (g₁.deleted (p + c) (p + (n - c) - 1)).end_ ≠ e + c := by
    show (g₁.toBuffer.text_hole_delete (p + c) (p + (n - c) - 1)).2.end_ ≠ e + c
    simp only [Buffer.text_hole_delete]
    split_ifs <;> dsimp only <;> omega
  omega

/-! ## Reading -/

lemma onlyText_hole (size : ℤ) : OnlyText g (g.text_hole_make p size) := by
  rw [Globals.text_hole_make]
  split <;> exact ⟨rfl, rfl, rfl⟩

/-- Only the text is touched when a file is read into it, and what is read is put into it just if it
is read well. -/
lemma read_in_exact (fn : List Char) (hp : 0 ≤ p) (hend : p ≤ g.end_) :
    OnlyText g (g.read_in fn p n found).2 ∧ ((g.read_in fn p n found).2.content =
      g.content.take p.toNat ++ found.read n ++ g.content.drop p.toNat ↔
        ReadsWell g.toBuffer p n found.data) := by
  have hsplit : g.content.take p.toNat ++ [] ++ g.content.drop p.toNat = g.content := by
    rw [List.append_nil, List.take_append_drop]
  simp only [Globals.read_in, Found.read]
  cases found.data with
  | none =>
    refine ⟨onlyText_hole (p := p) n, ?_⟩
    rw [Option.getD_none, List.take_nil, hsplit, ReadsWell]
    show ((g.text_hole_make p n).deleted p (p + n - 1)).content = g.content ↔ _
    obtain rfl | hn := n.eq_zero_or_pos
    · rw [or_iff_right (lt_irrefl 0)]
      exact content_no_hole_closed hp hend
    · exact iff_of_true (content_hole_closed hn hp hend) (.inl hn)
  | some data =>
    rw [Option.getD_some]
    dsimp only
    by_cases hless : ((data.take n).length : ℤ) < n
    · rw [if_pos hless]
      refine ⟨onlyText_hole (p := p) n, ?_⟩
      have hlen : (data.take n).length = data.length := by
        rw [List.length_take] at hless ⊢
        omega
      have hall : data.take n = data := List.take_of_length_le (by omega)
      rw [hall] at hless ⊢
      show (Globals.deleted { g.text_hole_make p n with
        mem := store (g.text_hole_make p n).mem p data } (p + data.length)
          (p + (n - data.length) - 1)).content = _ ↔ _
      obtain rfl | hne := eq_or_ne data []
      · -- nothing is stored, so that the hole is closed as it was opened
        have hstore : store (g.text_hole_make p n).mem p [] = (g.text_hole_make p n).mem := by
          ext1 i
          rw [store]
          split <;> rfl
        rw [hstore, hsplit]
        refine iff_of_true ?_ (.inr rfl)
        have hn : 0 < n := by simpa using hless
        simpa using content_hole_closed (g := g) hn hp hend
      · refine iff_of_false ?_ ?_
        · have hmake := Globals.end_text_hole_make g p n
          refine partly_closed_ne (e := g.end_) ?_ (by omega) (List.length_pos_iff.mpr hne) (by omega) ?_
          · show (g.text_hole_make p n).end_ = _
            omega
          · simp only [List.length_append, List.length_take, List.length_drop, length_content]
            omega
        · rintro (hle | hnil)
          · omega
          · exact hne hnil
    · rw [if_neg hless]
      refine ⟨onlyText_hole (p := p) n, ?_⟩
      have hlen : (data.take n).length = n := by
        rw [List.length_take] at hless ⊢
        omega
      have hle : n ≤ data.length := by
        rw [List.length_take] at hlen
        omega
      refine iff_of_true ?_ (.inl hle)
      have hinsert := Globals.content_insert (s := data.take n) hp hend
      rw [Globals.insert, hlen] at hinsert
      exact hinsert

/-- `file_insert` of a file that is there and can be opened. -/
lemma file_insert_eq {rest : List Found} (hfiles : g.world.files = found :: rest)
    (hsize : found.st_size = some n) (hregular : found.regular = true) (hopens : found.opens = true)
    (hp : 0 ≤ p) (hend : p ≤ g.end_) (fn : List Char) (ro : Bool) :
    g.file_insert fn p ro =
      let r := ({ g with world := { g.world with files := rest } } : Globals).read_in fn p n found
      (r.1, if ro ∧ found.readonly then { r.2 with readonly_mode := true } else r.2) := by
  have hread : ({ g with world := { g.world with files := rest } } : Globals).insert_found fn p found =
      ({ g with world := { g.world with files := rest } } : Globals).read_in fn p n found := by
    rw [Globals.insert_found, hsize]
    dsimp only
    rw [if_neg (by simp [hregular]), if_neg (by omega), if_neg (by simp [hopens])]
  rw [Globals.file_insert, hfiles, List.headD_cons, List.tail_cons]
  dsimp only at hread ⊢
  rw [hread]

/-- `file_insert` puts exactly what is read into the text, and touches nothing else, just if the
file is read well. -/
theorem file_insert_exact {rest : List Found} (hfiles : g.world.files = found :: rest)
    (hsize : found.st_size = some n) (hregular : found.regular = true) (hopens : found.opens = true)
    (hp : 0 ≤ p) (hend : p ≤ g.end_) (fn : List Char) (ro : Bool) :
    OnlyText g (g.file_insert fn p ro).2 ∧ ((g.file_insert fn p ro).2.content =
      g.content.take p.toNat ++ found.read n ++ g.content.drop p.toNat ↔
        ReadsWell g.toBuffer p n found.data) := by
  rw [file_insert_eq hfiles hsize hregular hopens hp hend]
  obtain ⟨hother, hread⟩ := @read_in_exact { g with world := { g.world with files := rest } } p n found fn
    hp hend
  generalize ({ g with world := { g.world with files := rest } } : Globals).read_in fn p n found = r
    at hother hread ⊢
  dsimp only
  by_cases hro : ro = true ∧ found.readonly = true
  · rw [if_pos hro]
    exact ⟨⟨hother.1, hother.2.1, by dsimp only; rw [hother.2.2]⟩, hread⟩
  · rw [if_neg hro]
    exact ⟨hother, hread⟩

/-- An editor with a text of two lines that meets the file `found`. -/
def facing (found : Found) : Globals :=
  { opened ['a', '\n', 'b', '\n'] [] with
    world :=
      { busy := []
        sizes := []
        erase := []
        file_sizes := []
        files := [found]
        sinks := []
        behind := []
        fuel := 0 } }

theorem file_insert_exact_failed : ∃ g : Globals, g.content = ['a', '\n', 'b', '\n'] ∧
    (∃ found, g.world.files = [found] ∧ found.data = none) ∧
      (g.file_insert ['g'] 2 false).2.content = g.content := by
  have hcontent : (facing ⟨some 3, true, true, none, false, ""⟩).content = ['a', '\n', 'b', '\n'] := by
    decide +kernel
  have hend : (facing ⟨some 3, true, true, none, false, ""⟩).end_ = 4 := by decide +kernel
  have hread := (file_insert_exact (g := facing ⟨some 3, true, true, none, false, ""⟩) (p := 2) (n := 3)
    rfl rfl rfl rfl (by decide) (by omega) ['g'] false).2.mpr (.inl (by decide))
  refine ⟨_, hcontent, ⟨_, rfl, rfl⟩, hread.trans ?_⟩
  rw [hcontent]
  rfl

/-- One character of three is read; two blanks stay in the text. -/
theorem blanks_left_behind : ∃ g : Globals, g.content = ['a', '\n', 'b', '\n'] ∧
    (∃ found, g.world.files = [found] ∧ found.st_size = some 3 ∧ found.data = some ['z']) ∧
      (g.file_insert ['g'] 2 false).2.content = ['a', '\n', 'z', ' ', 'b', '\n'] := by
  refine ⟨facing ⟨some 3, true, true, some ['z'], false, ""⟩, ?_, ⟨_, rfl, rfl, rfl⟩, ?_⟩
  · decide +kernel
  · decide +kernel

/-! ## The read command -/

/-- Where `:read` inserts behind line `k`: before the next line, and behind the last line before the
newline that ends it. -/
def read_point (b : Buffer) (ls : List (List Char)) (k : ℕ) : ℤ :=
  if k < ls.length then before '\n' ls k else b.end_ - 1

section Read

variable {ls : List (List Char)} {k : ℕ} {F fn a : List Char}

lemma read_point_nonneg (h : g.Lined ls) (hne : ls ≠ []) :
    0 ≤ read_point g.toBuffer ls k ∧ read_point g.toBuffer ls k < g.end_ := by
  have hpos := List.length_pos_of_ne_nil hne
  have hzero := h.before_lt_end hpos
  rw [read_point]
  split
  · rename_i hk
    have := h.before_lt_end hk
    omega
  · omega

lemma next_line_read_point (h : g.Lined ls) (hne : ls ≠ []) (hk : k ≤ ls.length) :
    (if (k : ℤ) ≠ 0 then g.next_line (g.find_line k) else g.find_line k) =
      read_point g.toBuffer ls k := by
  have hpos := List.length_pos_of_ne_nil hne
  cases k with
  | zero =>
    rw [if_neg (by simp), read_point, if_pos hpos, before_zero]
    rfl
  | succ k =>
    have hfind : g.find_line ((k + 1 : ℕ) : ℤ) = before '\n' ls k := by
      push_cast
      exact h.find_line_eq (by omega)
    rw [if_pos (by simp; omega), hfind, read_point]
    split
    · rename_i hlt
      exact h.next_line_eq hlt (le_refl _) (by omega)
    · exact h.next_line_last (by omega) (le_refl _) (by omega)

/-- The command line `r file`, behind the line number. -/
lemma line_of_read (hfn : ∀ c ∈ fn.head?, isblank c = false) :
    (Line.of k (-1) ('r' :: ' ' :: fn)).cmd = ['r'] ∧
      (Line.of k (-1) ('r' :: ' ' :: fn)).args = fn := by
  have hargs : (' ' :: fn).dropWhile isblank = fn := by
    rw [List.dropWhile_cons_of_pos (by decide)]
    cases fn with
    | nil => rfl
    | cons c fn => exact List.dropWhile_cons_of_neg (by simp [hfn c rfl])
  exact ⟨rfl, hargs⟩

/-- The typed line runs the command `:read`. -/
lemma run_colon_read_line (ha : Number a k) (hfn : ∀ c ∈ fn.head?, isblank c = false) :
    (colon (a ++ ' ' :: 'r' :: ' ' :: fn)).run exec g =
      ((colon_read (Line.of k (-1) ('r' :: ' ' :: fn))).bind fun _ => edit bound_dot).run exec g := by
  have haddr : (get_address (a ++ ' ' :: 'r' :: ' ' :: fn)).run exec g =
      .done ((k : ℤ), -1, (' ' :: 'r' :: ' ' :: fn).dropWhile isblank) g := run_get_address_number ha
    (fun c hc => by cases hc; decide) (fun c hc => by cases hc; decide)
  have hread : ColonCmd.of ['r'] = .read := by decide
  obtain ⟨hcmd, -⟩ := line_of_read (k := k) hfn
  have hdrop : (' ' :: 'r' :: ' ' :: fn).dropWhile isblank = 'r' :: ' ' :: fn := rfl
  rw [hdrop] at haddr
  have hexec : (Line.of k (-1) ('r' :: ' ' :: fn)).exec =
      (colon_read (Line.of k (-1) ('r' :: ' ' :: fn))).bind fun _ => pure true := by
    rw [Line.exec, hcmd, hread]
    rfl
  rw [run_colon_number ha haddr, hexec, Program.run_bind, Program.run_bind, Program.run_bind]
  cases (colon_read (Line.of k (-1) ('r' :: ' ' :: fn))).run exec g with
  | done u g' => rfl
  | stopped e => rfl

lemma base_hole {b : Buffer} {size : ℤ} : (b.hole p size).base = b.base := by
  rw [Buffer.hole]
  split <;> rfl

/-- Where the text is after an insertion. -/
lemma placed_insert (g : Globals) (p : ℤ) (s : List Char) : (g.insert p s).dot = g.dot ∧
    (g.insert p s).base = g.base ∧
      (g.insert p s).block = if Fitting g s.length then g.block else g.block + 1 := by
  refine ⟨g.dot_text_hole_make p s.length, ?_, ?_⟩
  · show (g.text_hole_make p s.length).base = g.base
    rw [Globals.text_hole_make]
    split <;> exact base_hole
  · show (g.text_hole_make p s.length).block = _
    by_cases hfit : Fitting g s.length
    · rw [if_pos hfit, Globals.text_hole_make_of_fitting hfit]
      exact Globals.block_hole
    · have hgrow : (g.hole p s.length).end_ = g.end_ + s.length := by
        rw [end_hole]
        omega
      rw [if_neg hfit, Globals.text_hole_make]
      dsimp only
      rw [hgrow, if_pos (by rw [Fitting] at hfit; omega)]
      exact congrArg (· + 1) Globals.block_hole

lemma read_in_whole (hdata : found.data = some F) (g : Globals) :
    g.read_in fn p F.length found =
      ((F.length : ℤ), { g.insert p F with file_modified := (g.insert p F).file_modified + 1 }) := by
  rw [Globals.read_in, hdata]
  dsimp only
  rw [List.take_length, if_neg (lt_irrefl _)]
  rfl

/-- A file that is read completely. -/
lemma file_insert_whole {rest : List Found} (hfiles : g.world.files = found :: rest)
    (hsize : found.st_size = some F.length) (hregular : found.regular = true)
    (hopens : found.opens = true) (hdata : found.data = some F) (hp : 0 ≤ p) (hend : p ≤ g.end_)
    (fn : List Char) : ∃ g₁ : Globals, g.file_insert fn p false = ((F.length : ℤ), g₁) ∧
      g₁.content = g.content.take p.toNat ++ F ++ g.content.drop p.toNat ∧
      g₁.end_ = g.end_ + F.length ∧ g₁.dot = g.dot ∧ g₁.base = g.base ∧
      g₁.block = if Fitting g F.length then g.block else g.block + 1 := by
  have heq := file_insert_eq hfiles hsize hregular hopens hp hend fn false
  have hro : ¬ (false = true ∧ found.readonly = true) := nofun
  rw [read_in_whole hdata] at heq
  dsimp only at heq
  rw [if_neg hro] at heq
  have hinsert := Globals.content_insert (g := { g with world := { g.world with files := rest } }) (s := F)
    hp hend
  have hmore := Globals.end_insert (g := { g with world := { g.world with files := rest } }) (p := p)
    (s := F)
  obtain ⟨hdot, hbase, hblock⟩ := placed_insert { g with world := { g.world with files := rest } } p F
  exact ⟨_, heq, hinsert, hmore, hdot, hbase, hblock⟩

/-- The text stays where it is, or the place it has left lies behind it. -/
def PlaceLost (g : Globals) (q : ℤ) (F : List Char) : Prop :=
  ¬ Fitting g F.length ∧ g.base g.block + q ≤ g.base (g.block + 1) + (g.end_ + F.length - 1)

instance (g : Globals) (q : ℤ) (F : List Char) : Decidable (PlaceLost g q F) :=
  inferInstanceAs (Decidable (_ ∧ _))

/-- What `:read` does with a file that is read completely. -/
lemma run_colon_read {l : Line} {rest : List Found} (hfiles : g.world.files = found :: rest)
    (hsize : found.st_size = some F.length) (hregular : found.regular = true)
    (hopens : found.opens = true) (hdata : found.data = some F) (hb : l.b = k) (hargs : l.args ≠ [])
    (hq : (if (k : ℤ) ≠ 0 then g.next_line (g.find_line k) else g.find_line k) = p) (hp : 0 ≤ p)
    (hend : p < g.end_) (hin : g.dot < g.end_) :
    if PlaceLost g p F then (colon_read l).run exec g = .stopped .dangling
    else ∃ g' : Globals, (colon_read l).run exec g = .done () g' ∧
      g'.content = g.content.take p.toNat ++ F ++ g.content.drop p.toNat ∧
      g'.end_ = g.end_ + F.length ∧
      g'.dot = if p ≤ g.dot ∧ Fitting g F.length then g.dot + F.length else g.dot := by
  obtain ⟨g₁, hinsert, hcontent, hend₁, hdot₁, hbase, hblock⟩ := file_insert_whole hfiles hsize hregular
    hopens hdata hp hend.le l.args
  have hb0 : ¬ l.b < 0 := by omega
  have hfirst : l.first g.toEd = g.find_line k := by rw [Line.first, if_pos (not_lt.mp hb0), hb]
  have hlen : (0 : ℤ) ≤ F.length := Int.natCast_nonneg _
  have hop : Sys.exec ℤ (.file_insert l.args p false) g = .done (F.length : ℤ) g₁ := by
    rw [Sys.exec, hinsert]
  have hrun : ∃ msg : ℕ → String, (colon_read l).run exec g =
      (Sys.exec ℕ (.count_lines ⟨g.block, p⟩ F.length) g₁).andThen fun li g₂ =>
        ((edit (status_line (msg li))).bind fun _ => if (0 : ℤ) < F.length then
          (edit (view fun s => { s.toView with
            dot := if s.addr (some ⟨g.block, p⟩) ≤ s.at_ s.dot then s.dot + F.length else s.dot })).bind
              fun _ => sys .touch
        else pure ()).run exec g₂ := by
    let fn := String.ofList l.args
    let ro := if g.readonly_mode then " [Readonly]" else ""
    let ch : ℤ := F.length
    refine ⟨fun li => s!"\"{fn}\"{ro} {li}L, {ch}C", ?_⟩
    rw [colon_read, if_neg hargs]
    show ((sys (.file_insert l.args (if l.b ≠ 0 then
      g.next_line (if l.b < 0 then g.begin_line g.dot else l.first g.toEd)
        else if l.b < 0 then g.begin_line g.dot else l.first g.toEd) false)).bind _).run exec g = _
    rw [if_neg hb0, hfirst, hb, hq, Program.run_bind, run_sys, hop, Outcome.andThen_done, if_pos hlen]
    dsimp only
    rw [Program.bind_eq, Program.run_bind, run_sys]
    rfl
  obtain ⟨msg, hrun⟩ := hrun
  rw [hrun]
  have haddr : g₁.addr (some ⟨g.block, p⟩) = g.base g.block + p := by
    show g₁.base g.block + p = _
    rw [hbase]
  by_cases hlost : PlaceLost g p F
  · -- the pointer to the text as it was is looked through
    have hmoved : ¬ g.block = g₁.block := by
      rw [hblock, if_neg hlost.1]
      omega
    have hpos : 0 < (F.length : ℤ) := (Classical.not_imp.mp hlost.1).1
    have hbelow : g₁.addr (some ⟨g.block, p⟩) + min 0 ((F.length : ℤ) - 1) ≤ g₁.at_ (g₁.end_ - 1) := by
      have hle := hlost.2
      show _ ≤ g₁.base g₁.block + (g₁.end_ - 1)
      rw [haddr, hbase, hend₁, hblock, if_neg hlost.1]
      omega
    rw [if_pos hlost, Sys.exec, if_neg hmoved, if_pos hbelow]
    rfl
  · have hcount : ∃ li, Sys.exec ℕ (.count_lines ⟨g.block, p⟩ F.length) g₁ = .done li g₁ := by
      rw [Sys.exec]
      by_cases hmoved : g.block = g₁.block
      · exact ⟨_, if_pos hmoved⟩
      · have hfit : ¬ Fitting g F.length := fun hfit => hmoved (by rw [hblock, if_pos hfit])
        have hpos : 0 < (F.length : ℤ) := (Classical.not_imp.mp hfit).1
        have hbeyond : ¬ g₁.addr (some ⟨g.block, p⟩) + min 0 ((F.length : ℤ) - 1) ≤
            g₁.at_ (g₁.end_ - 1) := by
          intro hle
          refine hlost ⟨hfit, ?_⟩
          have hle' : g₁.addr (some ⟨g.block, p⟩) + min 0 ((F.length : ℤ) - 1) ≤
            g₁.base g₁.block + (g₁.end_ - 1) := hle
          rw [haddr, hbase, hend₁, hblock, if_neg hfit] at hle'
          omega
        rw [if_neg hmoved, if_neg hbeyond]
        exact ⟨_, rfl⟩
    obtain ⟨li, hli⟩ := hcount
    rw [if_neg hlost, hli, Outcome.andThen_done]
    by_cases hpos : (0 : ℤ) < F.length
    · rw [if_pos hpos]
      refine ⟨_, rfl, hcontent, hend₁, ?_⟩
      show (if g₁.addr (some ⟨g.block, p⟩) ≤ g₁.base g₁.block + g₁.dot then g₁.dot + F.length
        else g₁.dot) = _
      rw [haddr, hdot₁, hbase, hblock]
      refine if_congr ?_ rfl rfl
      by_cases hfit : Fitting g F.length
      · rw [if_pos hfit]
        exact ⟨fun h => ⟨by omega, hfit⟩, fun h => by omega⟩
      · rw [if_neg hfit]
        have hbeyond := not_and.mp hlost hfit
        exact ⟨fun h => by omega, fun h => absurd h.2 hfit⟩
    · rw [if_neg hpos]
      refine ⟨_, rfl, hcontent, hend₁, ?_⟩
      have hnil : (F.length : ℤ) = 0 := by omega
      show g₁.dot = _
      rw [hnil, add_zero, ite_self, hdot₁]

/-- `:k r file` puts the file behind line `k` and leaves the cursor on its character: nothing is
read, or line `k` is not the last one or only newlines are read, and the cursor is not moved when it
should stay, or left behind when the text moves. -/
def ReadsBetween (g : Globals) (ls : List (List Char)) (k : ℕ) (F : List Char) : Prop :=
  F = [] ∨ (k < ls.length ∨ ∀ c ∈ F, c = '\n') ∧
    if Fitting g F.length then k < ls.length ∨ g.dot < g.end_ - 1
    else ¬ PlaceLost g (read_point g.toBuffer ls k) F ∧ g.dot < before '\n' ls k

/-- Newlines before the last newline are newlines behind it. -/
lemma append_newline_eq : F ++ ['\n'] = '\n' :: F ↔ ∀ c ∈ F, c = '\n' := by
  induction F with
  | nil => simp
  | cons c F ih =>
    rw [List.cons_append, List.cons.injEq, List.forall_mem_cons]
    refine and_congr_right ?_
    rintro rfl
    exact ih

/-- The text is the lines up to `k`, the file and the lines behind `k`, if the file goes where line
`k` ends, or if that makes no difference. -/
lemma content_read_point (h : g.Lined ls) (hne : ls ≠ []) (hk : k ≤ ls.length) :
    g.content.take (read_point g.toBuffer ls k).toNat ++ F ++
        g.content.drop (read_point g.toBuffer ls k).toNat =
      unlines '\n' (ls.take k) ++ F ++ unlines '\n' (ls.drop k) ↔
        k < ls.length ∨ ∀ c ∈ F, c = '\n' := by
  rw [read_point, h.content]
  by_cases hlt : k < ls.length
  · rw [if_pos hlt, Int.toNat_natCast, take_unlines, drop_unlines]
    exact iff_of_true rfl (.inl hlt)
  · obtain rfl : k = ls.length := by omega
    -- what the last newline ends is `init`
    obtain ⟨ls', l, rfl⟩ := (List.eq_nil_or_concat' ls).resolve_left hne
    have hsplit : unlines '\n' (ls' ++ [l]) = unlines '\n' ls' ++ l ++ ['\n'] := by simp
    have hend := h.end_eq
    rw [hsplit] at hend ⊢
    generalize unlines '\n' ls' ++ l = init at hsplit hend ⊢
    have hpoint : (g.end_ - 1).toNat = init.length := by
      rw [hend, List.length_append, List.length_singleton]
      omega
    rw [if_neg hlt, hpoint, List.take_left' rfl, List.drop_left' rfl, List.take_length, List.drop_length,
      hsplit, unlines_nil, List.append_nil, List.append_assoc, List.append_assoc, List.append_cancel_left_eq,
      List.singleton_append, append_newline_eq, or_iff_right hlt]

/-- `:k r file` puts the file between the lines and leaves the cursor on its character just under
the condition `ReadsBetween`. -/
theorem read_between {rest : List Found} (h : g.Lined ls) (hne : ls ≠ []) (hk : k ≤ ls.length)
    (hdot : 0 ≤ g.dot) (hin : g.dot < g.end_) (ha : Number a k) (hfn : fn ≠ [])
    (hblank : ∀ c ∈ fn.head?, isblank c = false) (hfiles : g.world.files = found :: rest)
    (hsize : found.st_size = some F.length) (hregular : found.regular = true)
    (hopens : found.opens = true) (hdata : found.data = some F) :
    (∃ g' : Globals, (colon (a ++ ' ' :: 'r' :: ' ' :: fn)).run exec g = .done () g' ∧
      g'.content = unlines '\n' (ls.take k) ++ F ++ unlines '\n' (ls.drop k) ∧
      g'.dot = if g.dot < before '\n' ls k then g.dot else g.dot + F.length) ↔
    ReadsBetween g ls k F := by
  obtain ⟨hcmd, hargs⟩ := line_of_read (k := k) hblank
  obtain ⟨hq, hqend⟩ := read_point_nonneg h hne
  have hread := run_colon_read (l := Line.of k (-1) ('r' :: ' ' :: fn)) hfiles hsize hregular hopens hdata
    rfl (by rw [hargs]; exact hfn) (next_line_read_point h hne hk) hq hqend hin
  rw [run_colon_read_line ha hblank, Program.run_bind]
  have hplace : k < ls.length → read_point g.toBuffer ls k = before '\n' ls k := fun hlt => if_pos hlt
  have hlast : ¬ k < ls.length →
      read_point g.toBuffer ls k = g.end_ - 1 ∧ (before '\n' ls k : ℤ) = g.end_ := by
    intro hlt
    rw [read_point, if_neg hlt, before_all (by omega), h.end_eq]
    exact ⟨rfl, rfl⟩
  by_cases hlost : PlaceLost g (read_point g.toBuffer ls k) F
  · rw [if_pos hlost] at hread
    rw [hread]
    refine iff_of_false ?_ ?_
    · rintro ⟨g', hr, -⟩
      cases hr
    · rintro (rfl | ⟨-, hplaced⟩)
      · exact hlost.1 fun h0 => absurd h0 (lt_irrefl 0)
      · rw [if_neg hlost.1] at hplaced
        exact hplaced.1 hlost
  · rw [if_neg hlost] at hread
    obtain ⟨g₁, hr₁, hcontent, hend₁, hdot₁⟩ := hread
    have hin₁ : 0 ≤ g₁.dot ∧ g₁.dot < g₁.end_ := by
      rw [hdot₁, hend₁]
      split <;> omega
    rw [hr₁, Outcome.andThen_done, run_bound_dot_inside hin₁.1 hin₁.2]
    have htext := content_read_point (F := F) h hne hk
    rw [← hcontent] at htext
    -- the cursor is where it should be
    have hcursor : F ≠ [] → (g₁.dot =
        (if g.dot < before '\n' ls k then g.dot else g.dot + F.length) ↔
          if Fitting g F.length then k < ls.length ∨ g.dot < g.end_ - 1
          else ¬ PlaceLost g (read_point g.toBuffer ls k) F ∧ g.dot < before '\n' ls k) := by
      intro hF
      have hpos : 0 < (F.length : ℤ) := by
        have := List.length_pos_of_ne_nil hF
        omega
      rw [hdot₁]
      by_cases hfit : Fitting g F.length
      · simp only [hfit, and_true, if_true]
        by_cases hlt : k < ls.length
        · rw [hplace hlt]
          split_ifs <;> omega
        · obtain ⟨hpoint, hall⟩ := hlast hlt
          rw [hpoint, hall]
          split_ifs <;> omega
      · rw [if_neg hfit, if_neg (fun h => hfit h.2), and_iff_right hlost]
        split_ifs <;> omega
    obtain rfl | hF := eq_or_ne F []
    · refine iff_of_true ⟨g₁, rfl, htext.mpr (.inr nofun), ?_⟩ (.inl rfl)
      rw [hdot₁]
      simp
    · rw [ReadsBetween, or_iff_right hF, ← htext, ← hcursor hF]
      constructor
      · rintro ⟨g', hr, hc, hd⟩
        cases hr
        exact ⟨hc, hd⟩
      · exact fun hcond => ⟨g₁, rfl, hcond⟩

end Read

theorem read_between_lines : ∃ g : Globals, g.content = ['a', '\n', 'b', '\n'] ∧ ∃ g' : Globals,
    (colon ['1', ' ', 'r', ' ', 'g']).run exec g = .done () g' ∧
      g'.content = ['a', '\n', 'z', '\n', 'b', '\n'] := by
  have hcontent : (facing ⟨some 2, true, true, some ['z', '\n'], false, ""⟩).content =
      ['a', '\n', 'b', '\n'] := by decide +kernel
  have hend : (facing ⟨some 2, true, true, some ['z', '\n'], false, ""⟩).end_ = 4 := by decide +kernel
  have hdot : (facing ⟨some 2, true, true, some ['z', '\n'], false, ""⟩).dot = 0 := by decide +kernel
  have hsize : (facing ⟨some 2, true, true, some ['z', '\n'], false, ""⟩).text_size = 10244 := by
    decide +kernel
  have hlined : (facing ⟨some 2, true, true, some ['z', '\n'], false, ""⟩).Lined [['a'], ['b']] :=
    ⟨by rw [hend]; decide, hcontent, by decide⟩
  have hname : ∀ c ∈ ['g'].head?, isblank c = false := fun c hc => by
    cases hc
    decide
  have hread := read_between hlined (k := 1) (F := ['z', '\n']) (a := ['1']) (by decide) (by decide)
    (by rw [hdot]) (by rw [hdot, hend]; decide)
    ⟨by decide, List.forall_mem_singleton.mpr (by decide), by decide⟩ (by decide) hname rfl rfl rfl rfl rfl
  have hbetween : ReadsBetween (facing ⟨some 2, true, true, some ['z', '\n'], false, ""⟩)
      [['a'], ['b']] 1 ['z', '\n'] := by
    refine .inr ⟨.inl (by decide), ?_⟩
    rw [if_pos (by rw [Fitting, hend, hsize]; decide)]
    exact .inl (by decide)
  obtain ⟨g', hr, hc, -⟩ := hread.mpr hbetween
  exact ⟨_, hcontent, g', hr, hc⟩

/-- A file that is read behind the last line is put before its newline. -/
theorem read_into_last_line : ∃ g : Globals, g.content = ['a', '\n', 'b', '\n'] ∧ ∃ g' : Globals,
    (colon ['2', ' ', 'r', ' ', 'g']).run exec g = .done () g' ∧
      g'.content = ['a', '\n', 'b', 'z', '\n', '\n'] := by
  have hrun : (((colon ['2', ' ', 'r', ' ', 'g']).run exec
      (facing ⟨some 2, true, true, some ['z', '\n'], false, ""⟩)).state.map fun g' => g'.content) =
        some ['a', '\n', 'b', 'z', '\n', '\n'] := by decide +kernel
  obtain ⟨g', hr, hc⟩ := Option.map_eq_some_iff.mp hrun
  obtain ⟨u, hr⟩ := Outcome.state_eq_some.mp hr
  exact ⟨_, by decide +kernel, g', hr, hc⟩

end EspLinux.Vi
