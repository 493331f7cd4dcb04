import EspLinux.Lib.Replace
import EspLinux.Vi.LineNumbers
import EspLinux.Vi.Room
import EspLinux.Vi.Search

/-!
# vi: substitution

`:b,e s/find/replace/` replaces in one line after the other.  While a line is worked on, the text is
that of the lines before it, of what has been replaced so far followed by what is still to be
searched, and of the lines behind it; each turn makes the part that is still to be searched shorter.
-/

namespace EspLinux.Vi

open Lib

variable {g : Globals} {b : Buffer} {pre post : List (List Char)} {find by_ u w : List Char} {q : ℤ}

/-! ## Searching in a line -/

/-- In a line, a pattern without newline matches just what it is a prefix of. -/
lemma Buffer.matches_line (hmem : ∀ (i : ℕ) (hi : i < w.length), b.mem (q + i) = w[i])
    (hnl : b.mem (q + w.length) = '\n') (hfind : '\n' ∉ find) : b.Matches find q ↔ find <+: w := by
  induction find generalizing w q with
  | nil => simp [Buffer.Matches, Buffer.mycmp]
  | cons c find ih =>
    rw [List.mem_cons, not_or] at hfind
    rw [Buffer.matches_cons]
    cases w with
    | nil =>
      have hq : b.mem q = '\n' := by simpa using hnl
      rw [hq]
      refine iff_of_false (fun h => hfind.1 h.1) ?_
      simp
    | cons d w =>
      have hq : b.mem q = d := by
        have hzero := hmem 0 (by simp)
        rw [Nat.cast_zero, add_zero] at hzero
        exact hzero
      have hrest : b.Matches find (q + 1) ↔ find <+: w := by
        refine ih (fun i hi => ?_) ?_ hfind.2
        · have hstep : q + 1 + (i : ℤ) = q + ((i + 1 : ℕ) : ℤ) := by
            push_cast
            ring
          rw [hstep, hmem (i + 1) (by simpa using hi)]
          rfl
        · have hstep : q + 1 + (w.length : ℤ) = q + ((d :: w).length : ℤ) := by
            rw [List.length_cons]
            push_cast
            ring
          rw [hstep]
          exact hnl
      rw [hq, hrest, List.cons_prefix_cons, eq_comm]

/-- The search in what is left of a line: the first occurrence, or none. -/
lemma search_line (h : b.Lined (pre ++ (u ++ w) :: post)) (hne : find ≠ []) (hfind : '\n' ∉ find) :
    match b.char_search false ((unlines '\n' pre).length + u.length) find .forward true with
    | none => Absent find w w.length
    | some p => ∃ v rest, w = v ++ find ++ rest ∧ p = (unlines '\n' pre).length + u.length + v.length ∧
        Absent find (v ++ find ++ rest) v.length := by
  have hmatches : ∀ i : ℕ, i ≤ w.length →
      (b.Matches find ((unlines '\n' pre).length + u.length + i) ↔ find <+: w.drop i) := by
    intro i hi
    refine Buffer.matches_line (fun j hj => ?_) ?_ hfind
    · rw [List.length_drop] at hj
      have hpos : ((unlines '\n' pre).length : ℤ) + u.length + i + j =
          (unlines '\n' pre).length + ((u.length + (i + j) : ℕ) : ℤ) := by
        push_cast
        ring
      rw [hpos, h.mem_middle (by rw [List.length_append]; omega),
        List.getElem_append_right (by omega), List.getElem_drop]
      congr 1
      omega
    · have hnl := h.newline_middle
      have hpos : ((unlines '\n' pre).length : ℤ) + u.length + i + (w.drop i).length =
          (unlines '\n' pre).length + (u ++ w).length := by
        rw [List.length_drop, List.length_append]
        omega
      rwa [hpos]
  have hlimit := h.next_line_middle (p := (unlines '\n' pre).length + u.length) (by omega)
    (by rw [List.length_append]; omega)
  -- at the newline itself there is no match
  have hlast : ∀ i : ℕ, find <+: w.drop i → i < w.length := by
    intro i hi
    by_contra hge
    rw [List.drop_eq_nil_of_le (by omega), List.prefix_nil] at hi
    exact hne hi
  simp only [Buffer.char_search, if_true]
  rw [hlimit]
  generalize hn : ((unlines '\n' pre).length + (u ++ w).length + (if post = [] then 0 else 1 : ℤ) -
    ((unlines '\n' pre).length + u.length)).toNat = n
  have hn' : w.length ≤ n ∧ n ≤ w.length + 1 := by
    rw [List.length_append] at hn
    split at hn <;> omega
  cases hs : b.search_from false find 1 n ((unlines '\n' pre).length + u.length) with
  | none =>
    intro i hi hprefix
    have hno := Buffer.search_from_eq_none.mp hs i (by omega)
    rw [one_mul] at hno
    exact hno ((hmatches i hi.le).mpr hprefix)
  | some p =>
    obtain ⟨j, hj, rfl, hmatch, hno⟩ := Buffer.search_from_eq_some.mp hs
    rw [one_mul] at hmatch ⊢
    have hprefix := (hmatches j (by omega)).mp hmatch
    have hjw := hlast j hprefix
    have habsent : Absent find w j := by
      intro i hi hpre
      have hnot := hno i hi
      rw [one_mul] at hnot
      exact hnot ((hmatches i (by omega)).mpr hpre)
    obtain ⟨v, rest, hw, hv, hfirst⟩ := exists_first hprefix habsent hjw.le
    exact ⟨v, rest, hw, by rw [hv], hfirst⟩

/-! ## Replacing in one line -/

/-- The replacement of one occurrence. -/
lemma run_replacement (h : g.Lined (pre ++ (u ++ find ++ w) :: post)) (hne : find ≠ [])
    (hby : '\n' ∉ by_) {p : ℤ} (hp : p = (unlines '\n' pre).length + u.length)
    {hle : p ≤ p + find.length - 1} {f : Cmd Unit}
    (hroom : ((text_hole_delete p (p + find.length - 1) hle).bind fun _ =>
      (string_insert p by_).bind fun _ => f).Along Edit.exec (fun β o => HasRoom β (.inl o)) g) :
    ∃ g' : Globals, g'.Lined (pre ++ (u ++ by_ ++ w) :: post) ∧ g'.ignorecase = g.ignorecase ∧
      ((text_hole_delete p (p + find.length - 1) hle).bind fun _ =>
        (string_insert p by_).bind fun _ => f).run Edit.exec g = f.run Edit.exec g' ∧
      f.Along Edit.exec (fun β o => HasRoom β (.inl o)) g' := by
  subst hp
  have hdel := lined_deleted h hne
  have hroom₁ := hroom.rest (t := g.deleted _ _) rfl
  generalize hg₁ : g.deleted ((unlines '\n' pre).length + u.length)
    ((unlines '\n' pre).length + u.length + find.length - 1) = g₁ at hdel hroom₁
  have hic : g₁.ignorecase = g.ignorecase := by
    rw [← hg₁]
    rfl
  have hfit : Fitting g₁ by_.length := (Program.along_call _ _ _).mp hroom₁.first |>.1
  have hins := lined_insert hdel hby
  have hop : Edit.exec ℤ (.string_insert ((unlines '\n' pre).length + u.length) by_) g₁ =
      .done ((unlines '\n' pre).length + u.length : ℤ)
        (g₁.insert ((unlines '\n' pre).length + u.length) by_) := by
    rw [Edit.exec]
    exact if_neg (not_not.mpr (unmoved_insert hfit).block)
  have hic₂ : (g₁.insert ((unlines '\n' pre).length + u.length) by_).ignorecase = g₁.ignorecase := by
    rw [Globals.insert_of_fitting hfit]
  generalize g₁.insert ((unlines '\n' pre).length + u.length) by_ = g₂ at hins hop hic₂
  have hput : ∃ msg, (string_insert ((unlines '\n' pre).length + u.length) by_).run Edit.exec g₁ =
      .done ((unlines '\n' pre).length + u.length : ℤ) { g₂ with status_buffer := msg } := by
    rw [string_insert, Program.bind_eq, Program.run_bind, Program.run_perform, hop]
    exact ⟨_, rfl⟩
  obtain ⟨msg, hput⟩ := hput
  refine ⟨{ g₂ with status_buffer := msg }, ⟨hins.end_nonneg, hins.content, hins.plain⟩,
    hic₂.trans hic, ?_, hroom₁.rest hput⟩
  have hdone : (text_hole_delete ((unlines '\n' pre).length + u.length)
      ((unlines '\n' pre).length + u.length + find.length - 1) hle).run Edit.exec g =
        .done (g.toBuffer.text_hole_delete ((unlines '\n' pre).length + u.length)
          ((unlines '\n' pre).length + u.length + find.length - 1)).1 g₁ := by
    rw [← hg₁]
    rfl
  rw [Program.run_bind, hdone, Outcome.andThen_done, Program.run_bind, hput, Outcome.andThen_done]

/-- What `:s` makes of a line, with and without `g`. -/
def replaced (find by_ : List Char) (gflag : Bool) (l : List Char) : List Char :=
  if gflag then replaceAll find by_ l else replaceFirst find by_ l

/-- Replacing in what is left of a line comes to an end. -/
lemma run_substitute_line (hne : find ≠ []) (hfind : '\n' ∉ find) (hby : '\n' ∉ by_) (gflag : Bool)
    (n : ℕ) (h : g.Lined (pre ++ (u ++ w) :: post)) (hic : g.ignorecase = false) (hn : w.length < n)
    (hq : q = (unlines '\n' pre).length + u.length)
    (hroom : (substitute_line find by_ gflag hne (unlines '\n' pre).length n q).Along Edit.exec
      (fun β o => HasRoom β (.inl o)) g) :
    ∃ g' : Globals, (substitute_line find by_ gflag hne (unlines '\n' pre).length n q).run Edit.exec g =
        .done () g' ∧ g'.Lined (pre ++ (u ++ replaced find by_ gflag w) :: post) ∧
      g'.ignorecase = false := by
  induction n generalizing g u w q with
  | zero => omega
  | succ n ih =>
    subst hq
    have hsearch := search_line h hne hfind
    rw [substitute_line] at hroom ⊢
    rw [Program.bind_eq, run_look_bind]
    replace hroom := hroom.rest (t := g) (a := g.toEd) rfl
    dsimp only at hroom ⊢
    rw [hic] at hroom ⊢
    cases hs : g.char_search false ((unlines '\n' pre).length + u.length) find .forward true with
    | none =>
      rw [hs] at hsearch
      dsimp only at hsearch ⊢
      refine ⟨g, rfl, ?_, hic⟩
      have hsame : replaced find by_ gflag w = w := by
        rw [replaced]
        split
        · exact replaceAll_of_absent hsearch
        · exact replaceFirst_of_absent hsearch
      rwa [hsame]
    | some p =>
      rw [hs] at hsearch hroom
      dsimp only at hsearch hroom ⊢
      obtain ⟨v, rest, rfl, hp, hfirst⟩ := hsearch
      have hparts : u ++ (v ++ find ++ rest) = u ++ v ++ find ++ rest := by simp
      rw [hparts] at h
      have hp' : p = (unlines '\n' pre).length + (u ++ v).length := by
        rw [hp, List.length_append]
        push_cast
        ring
      obtain ⟨g₁, h₁, hic₁, hrun, hroom₁⟩ := run_replacement h hne hby hp' hroom
      replace hroom₁ := hroom₁.rest (t := g₁) (a := g₁.toEd) rfl
      rw [Program.bind_eq, Program.bind_eq, hrun, Program.bind_eq, run_look_bind]
      have hend := h₁.end_line_middle (p := (unlines '\n' pre).length) (le_refl _) (by omega)
      rw [hend] at hroom₁ ⊢
      have hmore : p + by_.length < (unlines '\n' pre).length + ((u ++ v ++ by_ ++ rest).length : ℤ) ↔
          rest ≠ [] := by
        rw [hp', ← List.length_pos_iff]
        simp only [List.length_append]
        push_cast
        omega
      by_cases hgo : gflag = true ∧
          p + by_.length < (unlines '\n' pre).length + ((u ++ v ++ by_ ++ rest).length : ℤ)
      · rw [if_pos hgo] at hroom₁ ⊢
        obtain ⟨g₂, hr₂, h₂, hic₂⟩ := ih (u := u ++ v ++ by_) (w := rest) (g := g₁) h₁ (hic₁.trans hic)
          (by
            have hlen := List.length_pos_of_ne_nil hne
            simp only [List.length_append] at hn
            omega)
          (by
            rw [hp']
            simp only [List.length_append]
            push_cast
            ring) hroom₁
        refine ⟨g₂, hr₂, ?_, hic₂⟩
        rw [replaced, if_pos hgo.1] at h₂ ⊢
        rw [replaceAll_append hne hfirst]
        simpa using h₂
      · rw [if_neg hgo]
        refine ⟨g₁, rfl, ?_, hic₁.trans hic⟩
        have hres : replaced find by_ gflag (v ++ find ++ rest) = v ++ by_ ++ rest := by
          rw [replaced]
          split
          · rename_i hg
            have hnil : rest = [] := not_not.mp fun hrest => hgo ⟨hg, hmore.mpr hrest⟩
            subst hnil
            rw [replaceAll_append hne hfirst]
            rfl
          · exact replaceFirst_append hne hfirst
        rw [hres]
        simpa using h₁

/-! ## Replacing in several lines -/

lemma run_substitute_lines (hne : find ≠ []) (hfind : '\n' ∉ find) (hby : '\n' ∉ by_) (gflag : Bool)
    (fuel : ℕ) (mid : List (List Char)) (h : g.Lined (pre ++ (mid ++ post))) (hic : g.ignorecase = false)
    (hfuel : ∀ l ∈ mid, l.length < fuel) (hq : mid ≠ [] → q = (unlines '\n' pre).length)
    (hroom : (substitute_lines find by_ gflag hne fuel mid.length q).Along Edit.exec
      (fun β o => HasRoom β (.inl o)) g) :
    ∃ g' : Globals, (substitute_lines find by_ gflag hne fuel mid.length q).run Edit.exec g = .done () g' ∧
      g'.Lined (pre ++ (mid.map (replaced find by_ gflag) ++ post)) := by
  induction mid generalizing g pre q with
  | nil => exact ⟨g, rfl, h⟩
  | cons l mid ih =>
    have hstart := hq (List.cons_ne_nil _ _)
    subst hstart
    rw [List.length_cons, substitute_lines] at hroom ⊢
    have hline : g.Lined (pre ++ ([] ++ l) :: (mid ++ post)) := h
    obtain ⟨g₁, hr₁, h₁, hic₁⟩ := run_substitute_line hne hfind hby gflag fuel hline hic
      (hfuel l List.mem_cons_self) (by simp) hroom.first
    replace hroom := (hroom.rest hr₁).rest (t := g₁) (a := g₁.toEd) rfl
    rw [Program.bind_eq, Program.run_bind, hr₁, Outcome.andThen_done, Program.bind_eq, run_look_bind]
    rw [List.nil_append] at h₁
    have hnext : mid ≠ [] → g₁.next_line (unlines '\n' pre).length =
        (unlines '\n' (pre ++ [replaced find by_ gflag l])).length := by
      intro hmid
      have hpost : mid ++ post ≠ [] := by simp [hmid]
      have hline := h₁.next_line_middle (p := (unlines '\n' pre).length) (le_refl _) (by omega)
      rw [if_neg hpost] at hline
      rw [hline, unlines_append, unlines_cons, unlines_nil, List.length_append, List.length_append,
        List.length_singleton]
      push_cast
      ring
    have hsplit : pre ++ replaced find by_ gflag l :: (mid ++ post) =
        pre ++ [replaced find by_ gflag l] ++ (mid ++ post) := by simp
    rw [hsplit] at h₁
    obtain ⟨g₂, hr₂, h₂⟩ := ih h₁ hic₁ (fun m hm => hfuel m (List.mem_cons_of_mem _ hm)) hnext hroom
    exact ⟨g₂, hr₂, by simpa using h₂⟩

/-! ## The command -/

/-- A word that begins with `s` and a delimiter abbreviates no name. -/
lemma not_abbreviates {c d x y : Char} {l rest : List Char} (name : String)
    (hname : name.toList = c :: d :: rest) (hd : tolower y ≠ tolower d) :
    abbreviates (x :: y :: l) name = false := by
  rw [abbreviates, strncasecmp, hname, decide_eq_false_iff_not]
  simp [hd]

/-- The word of `s/find/replace/` stands for the substitution. -/
lemma colonCmd_substitute (l : List Char) : ColonCmd.of ('s' :: '/' :: l) = .substitute := by
  have hbang : ¬ ('s' :: '/' :: l).headD NUL = '!' := by
    rw [List.headD_cons]
    decide
  rw [ColonCmd.of, if_neg (List.cons_ne_nil _ _), if_neg hbang,
    if_neg (by simp), not_abbreviates "delete" rfl (by decide), not_abbreviates "edit" rfl (by decide),
    not_abbreviates "file" rfl (by decide), not_abbreviates "features" rfl (by decide),
    not_abbreviates "list" rfl (by decide), not_abbreviates "quit" rfl (by decide),
    not_abbreviates "next" rfl (by decide), not_abbreviates "read" rfl (by decide),
    not_abbreviates "rewind" rfl (by decide), not_abbreviates "set" rfl (by decide)]
  rfl

/-- The command line of a substitution. -/
def substitution (find by_ : List Char) (gflag : Bool) : List Char :=
  's' :: '/' :: (find ++ '/' :: (by_ ++ '/' :: if gflag then ['g'] else []))

lemma split_substitution_eq (hfind : '/' ∉ find) (hby : '/' ∉ by_) (gflag : Bool) :
    split_substitution (substitution find by_ gflag) = some (find, by_, gflag) := by
  have htake : ∀ {l r : List Char}, '/' ∉ l → (l ++ '/' :: r).takeWhile (· ≠ '/') = l ∧
      (l ++ '/' :: r).dropWhile (· ≠ '/') = '/' :: r := by
    intro l r hl
    have hall : ∀ c ∈ l, decide (c ≠ '/') = true := by
      intro c hc
      rw [decide_eq_true_iff]
      rintro rfl
      exact hl hc
    rw [List.takeWhile_append_of_pos hall, List.dropWhile_append_of_pos hall]
    simp
  obtain ⟨ht, hd⟩ := htake (r := by_ ++ '/' :: if gflag then ['g'] else []) hfind
  obtain ⟨ht', hd'⟩ := htake (r := if gflag then ['g'] else []) hby
  have hrest : (substitution find by_ gflag).drop 2 =
      find ++ '/' :: (by_ ++ '/' :: if gflag then ['g'] else []) := rfl
  have hdelim : (substitution find by_ gflag).tail.headD NUL = '/' := rfl
  rw [split_substitution, hrest, hdelim]
  dsimp only
  rw [if_pos (by simp), ht, hd, List.tail_cons, ht', hd', List.tail_cons]
  cases gflag <;> rfl

/-- The word that names the command. -/
lemma cmd_substitution (b e : ℤ) (gflag : Bool) :
    ∃ l, (Line.of b e (substitution find by_ gflag)).cmd = 's' :: '/' :: l := by
  have hword : ∃ l, ((substitution find by_ gflag).takeWhile fun c => ¬ isspace c) = 's' :: '/' :: l :=
    ⟨_, rfl⟩
  obtain ⟨l, hl⟩ := hword
  rw [Line.of]
  dsimp only
  rw [hl]
  split
  · rename_i hlast
    cases l with
    | nil => exact absurd hlast (by decide)
    | cons c l => exact ⟨_, rfl⟩
  · exact ⟨l, rfl⟩

/-- The substitution of a find string that is not empty. -/
lemma colon_substitute_eq {l : Line} {gflag : Bool} (hne : find ≠ [])
    (hsplit : split_substitution l.orig_buf = some (find, by_, gflag)) (hb : 0 ≤ l.b) (he : 0 ≤ l.e) :
    colon_substitute l = (edit look).bind fun s => (edit (cut_line l.orig_buf)).bind fun _ =>
      (edit (.perform .fuel)).bind fun fuel =>
      (edit (substitute_lines find by_ gflag hne fuel (l.e - l.b + 1).toNat
        (s.begin_line (l.first s)))).bind fun _ => pure true := by
  rw [colon_substitute, Program.bind_eq]
  congr 1
  ext1 s
  rw [hsplit]
  dsimp only
  simp only [if_neg hne, if_neg (not_lt.mpr hb), if_neg (not_lt.mpr he), dif_neg hne, Program.bind_eq]

section Command

variable {ls : List (List Char)} {a e : List Char} {m n : ℕ}

/-- The line of a substitution in the lines `m` to `n`. -/
lemma run_line_substitution (h : g.Lined ls) (hic : g.ignorecase = false) (hm : 1 ≤ m) (hmn : m ≤ n)
    (hn : n ≤ ls.length) (hne : find ≠ []) (hfind : '\n' ∉ find) (hby : '\n' ∉ by_)
    (hdelim : '/' ∉ find) (hdelim' : '/' ∉ by_) (gflag : Bool)
    (hfuel : ∀ l ∈ ls, l.length < g.world.fuel)
    (hroom : (Line.of m n (substitution find by_ gflag)).exec.Along exec HasRoom g) :
    ∃ g' : Globals, (Line.of m n (substitution find by_ gflag)).exec.run exec g = .done true g' ∧
      g'.Lined (ls.take (m - 1) ++
        (((ls.drop (m - 1)).take (n - m + 1)).map (replaced find by_ gflag) ++ ls.drop n)) := by
  obtain ⟨l, hcmd⟩ : ∃ l, (Line.of m n (substitution find by_ gflag)).cmd = 's' :: '/' :: l :=
    cmd_substitution _ _ gflag
  have hexec : (Line.of m n (substitution find by_ gflag)).exec =
      colon_substitute (Line.of m n (substitution find by_ gflag)) := by
    rw [Line.exec, hcmd, colonCmd_substitute]
  have hm0 : 0 ≤ (Line.of m n (substitution find by_ gflag)).b := Int.natCast_nonneg m
  -- the line of the first address
  have hfirst : g.begin_line ((Line.of m n (substitution find by_ gflag)).first g.toEd) =
      (unlines '\n' (ls.take (m - 1))).length := by
    have hlt : m - 1 < ls.length := by omega
    have hnum : (m : ℤ) = ((m - 1 : ℕ) : ℤ) + 1 := by omega
    rw [Line.first, if_pos hm0]
    show g.begin_line (g.find_line m) = _
    rw [hnum, h.find_line_eq hlt, h.begin_line_eq hlt (le_refl _) (by omega)]
    rfl
  have hsplit : ls = ls.take (m - 1) ++ ((ls.drop (m - 1)).take (n - m + 1) ++ ls.drop n) := by
    have hdrop : ls.drop n = (ls.drop (m - 1)).drop (n - m + 1) := by
      rw [List.drop_drop]
      congr 1
      omega
    rw [hdrop, List.take_append_drop, List.take_append_drop]
  have hcount : ((n : ℤ) - m + 1).toNat = ((ls.drop (m - 1)).take (n - m + 1)).length := by
    rw [List.length_take, List.length_drop]
    omega
  rw [hexec, colon_substitute_eq hne (split_substitution_eq hdelim hdelim' gflag) hm0
    (Int.natCast_nonneg n)] at hroom ⊢
  -- the delimiters are cut in the line, and nothing else changes
  let g₀ : Globals := { g with
    line_memory := cut_delimiters (substitution find by_ gflag) g.line_memory g.line_end }
  replace hroom := (along_edit_iff _).mp
    (((hroom.rest (t := g) (a := g.toEd) rfl).rest (t := g₀) (a := ()) rfl).rest
      (t := g₀) (a := g.world.fuel) rfl).first
  rw [hfirst] at hroom
  have hlen : ((Line.of m n (substitution find by_ gflag)).e -
      (Line.of m n (substitution find by_ gflag)).b + 1).toNat =
        ((ls.drop (m - 1)).take (n - m + 1)).length := hcount
  rw [hlen] at hroom
  rw [hsplit] at h
  have h₀ : g₀.Lined (ls.take (m - 1) ++ ((ls.drop (m - 1)).take (n - m + 1) ++ ls.drop n)) := h
  obtain ⟨g', hr, h'⟩ := run_substitute_lines hne hfind hby gflag g.world.fuel _ h₀ hic
    (fun l hl => hfuel l (List.mem_of_mem_drop (List.mem_of_mem_take hl))) (fun _ => rfl) hroom
  refine ⟨g', ?_, h'⟩
  rw [Program.run_bind]
  show (((edit (cut_line _)).bind _).run exec g) = _
  rw [Program.run_bind]
  show (((edit (.perform .fuel)).bind _).run exec g₀) = _
  rw [Program.run_bind]
  show (((edit _).bind _).run exec g₀) = _
  rw [hfirst, hlen, Program.run_bind, run_edit, hr]
  rfl

/-- `:m,n s/find/replace/` replaces the first occurrence in each of the lines, with `g` every one
from left to right, and nothing else; the loop comes to an end. -/
theorem substitution_linewise (h : g.Lined ls) (hic : g.ignorecase = false) (ha : Number a m)
    (he : Number e n) (hm : 1 ≤ m) (hmn : m ≤ n) (hn : n ≤ ls.length) (hne : find ≠ [])
    (hfind : '\n' ∉ find) (hby : '\n' ∉ by_) (hdelim : '/' ∉ find) (hdelim' : '/' ∉ by_) (gflag : Bool)
    (hfuel : ∀ l ∈ ls, l.length < g.world.fuel)
    (hroom : (colon (a ++ ',' :: (e ++ ' ' :: substitution find by_ gflag))).Along exec HasRoom g) :
    ∃ g' : Globals, (colon (a ++ ',' :: (e ++ ' ' :: substitution find by_ gflag))).run exec g =
        .done () g' ∧
      g'.content = unlines '\n' (ls.take (m - 1)) ++
        (unlines '\n' (((ls.drop (m - 1)).take (n - m + 1)).map (replaced find by_ gflag)) ++
          unlines '\n' (ls.drop n)) := by
  have haddr : (get_address (a ++ ',' :: (e ++ ' ' :: substitution find by_ gflag))).run exec g =
      .done ((m : ℤ), (n : ℤ), (' ' :: substitution find by_ gflag).dropWhile isblank) g :=
    run_get_address_numbers ha he (fun c hc => by cases hc; decide)
  have hdrop : (' ' :: substitution find by_ gflag).dropWhile isblank = substitution find by_ gflag := rfl
  rw [hdrop] at haddr
  rw [colon_number ha] at hroom
  replace hroom := hroom.rest haddr
  obtain ⟨g₁, hr₁, h₁⟩ := run_line_substitution h hic hm hmn hn hne hfind hby hdelim hdelim' gflag hfuel
    hroom.first
  have hpos : 0 < g₁.end_ := by
    have hlines : 0 < (ls.take (m - 1) ++
        (((ls.drop (m - 1)).take (n - m + 1)).map (replaced find by_ gflag) ++ ls.drop n)).length := by
      simp only [List.length_append, List.length_map, List.length_take, List.length_drop]
      omega
    have hlt := h₁.before_lt_end hlines
    omega
  obtain ⟨g₂, hr₂, hbuf⟩ := run_bound_dot_done hpos
  refine ⟨g₂, ?_, ?_⟩
  · rw [run_colon_number ha haddr, Program.run_bind, hr₁, Outcome.andThen_done, if_pos rfl, hr₂]
  · rw [hbuf, h₁.content, unlines_append, unlines_append]

end Command

/-- An editor that tells cases apart, with a text of two lines. -/
def two_x : Globals := { opened ['a', 'x', 'b', 'x', '\n', 'x', '\n'] [] with ignorecase := false }

theorem substitution_linewise_doubled : ∃ g g' : Globals,
    g.content = ['a', 'x', 'b', 'x', '\n', 'x', '\n'] ∧
      (colon "1,2 s/x/xx/g".toList).run exec g = .done () g' ∧
        g'.content = ['a', 'x', 'x', 'b', 'x', 'x', '\n', 'x', 'x', '\n'] := by
  have hcontent : two_x.content = ['a', 'x', 'b', 'x', '\n', 'x', '\n'] := by decide +kernel
  have hend : two_x.end_ = 7 := by decide +kernel
  have hfuel : two_x.world.fuel = 10 := by decide +kernel
  have hroom : (colon (['1'] ++ ',' :: (['2'] ++ ' ' :: substitution ['x'] ['x', 'x'] true))).Along exec
      HasRoom two_x := by
    have hdec : decide ((colon "1,2 s/x/xx/g".toList).Along exec HasRoom two_x) = true := by
      decide +kernel
    exact of_decide_eq_true hdec
  have hlined : two_x.Lined [['a', 'x', 'b', 'x'], ['x']] := ⟨by rw [hend]; decide, hcontent, by decide⟩
  obtain ⟨g', hr, hc⟩ := substitution_linewise hlined (m := 1) (n := 2) rfl
    ⟨by decide, List.forall_mem_singleton.mpr (by decide), by decide⟩
    ⟨by decide, List.forall_mem_singleton.mpr (by decide), by decide⟩ (by decide) (by decide) (by decide)
    (by decide) (by decide) (by decide) (by decide) (by decide) true (by rw [hfuel]; decide) hroom
  exact ⟨_, g', hcontent, hr, hc⟩

end EspLinux.Vi
