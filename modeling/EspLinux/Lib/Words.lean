import Mathlib

/-!
# Words of a shell

How a POSIX shell takes text apart: field splitting of an unquoted expansion by the
characters of `IFS`, the `read` builtin, and pathname expansion of the words against
the names of a directory.  Blank, tab and newline are the white space of `IFS`: a run
of them is one delimiter, while any other character of `IFS` delimits by itself.
-/

namespace EspLinux.Lib.Words

/-- A text of the shell. -/
abbrev Text := List Char

/-- The value `IFS` has when a shell starts. -/
def blanks : Text := [' ', '\t', '\n']

/-- The characters of `IFS` that are white space. -/
def white (ifs : Text) (c : Char) : Bool := ifs.contains c && blanks.contains c

/-! ## Field splitting -/

/-- Where the splitter stands: before a field, inside one, or behind the white space
that closed one. -/
inductive Place
  | start
  | word (done : Text)
  | gap

/-- The fields of the rest of a text. -/
def fields (ifs : Text) : Place → Text → List Text
  | .start, [] => []
  | .gap, [] => []
  | .word done, [] => [done]
  | .start, c :: s =>
    if white ifs c then fields ifs .start s
    else if ifs.contains c then [] :: fields ifs .start s
    else fields ifs (.word [c]) s
  | .gap, c :: s =>
    if white ifs c then fields ifs .gap s
    else if ifs.contains c then fields ifs .start s
    else fields ifs (.word [c]) s
  | .word done, c :: s =>
    if white ifs c then done :: fields ifs .gap s
    else if ifs.contains c then done :: fields ifs .start s
    else fields ifs (.word (done ++ [c])) s

-- the equation of the splitter, made once for the lemmas below
alias fields_eq := fields.eq_def

/-- The words an unquoted expansion is split into. -/
def split (ifs s : Text) : List Text := fields ifs .start s

/-- `"$*"`: the arguments joined by the first character of `IFS`. -/
def join (ifs : Text) (args : List Text) : Text := (ifs.take 1).intercalate args

/-- A text that is one word under every `IFS` made of white space. -/
def IsWord (w : Text) : Prop := w ≠ [] ∧ ∀ c ∈ w, c ∉ blanks

instance (w : Text) : Decidable (IsWord w) :=
  decidable_of_iff (w ≠ [] ∧ (w.all fun c => !blanks.contains c) = true) (by simp [IsWord])

lemma white_blanks {c : Char} : white blanks c = true ↔ c ∈ blanks := by
  simp [white, blanks]

lemma not_white_of_not_mem {ifs : Text} {c : Char} (h : c ∉ ifs) : white ifs c = false := by
  simp [white, h]

/-- A piece without a character of `IFS` goes to the field in progress. -/
lemma fields_word_append {ifs w : Text} (hw : ∀ c ∈ w, c ∉ ifs) (done s : Text) :
    fields ifs (.word done) (w ++ s) = fields ifs (.word (done ++ w)) s := by
  induction w generalizing done with
  | nil => simp
  | cons c w ih =>
    have hc : c ∉ ifs := hw c (by simp)
    rw [List.cons_append, fields, if_neg (by simp [not_white_of_not_mem hc]),
      if_neg (by simpa using hc), ih fun d hd => hw d (by simp [hd])]
    simp

/-- A text without a character of `IFS` is one word. -/
theorem split_eq_self {ifs w : Text} (hne : w ≠ []) (hw : ∀ c ∈ w, c ∉ ifs) :
    split ifs w = [w] := by
  rcases w with _ | ⟨c, w⟩
  · exact absurd rfl hne
  have hc : c ∉ ifs := hw c (by simp)
  have htail : ∀ d ∈ w, d ∉ ifs := fun d hd => hw d (List.mem_cons_of_mem c hd)
  have h := fields_word_append htail [c] []
  rw [List.append_nil] at h
  rw [split, fields, if_neg (by simp [not_white_of_not_mem hc]), if_neg (by simpa using hc), h]
  rfl

lemma split_blanks {w : Text} (hw : IsWord w) : split blanks w = [w] :=
  split_eq_self hw.1 hw.2

@[simp] lemma split_nil (ifs : Text) : split ifs [] = [] := rfl

/-- With an empty `IFS` nothing is split. -/
lemma split_empty {s : Text} (hs : s ≠ []) : split [] s = [s] :=
  split_eq_self hs (by simp)

/-- White space before the first field is dropped. -/
lemma split_white {ifs : Text} {c : Char} (hc : white ifs c = true) (s : Text) :
    split ifs (c :: s) = split ifs s := by
  rw [split, fields, if_pos hc, ← split]

/-- The characters of a field come from the text, and none of them delimits. -/
lemma fields_forall {Q : Char → Prop} {ifs s : Text} (hs : ∀ c ∈ s, c ∉ ifs → Q c) {p : Place}
    (hp : ∀ done, p = .word done → ∀ c ∈ done, Q c) :
    ∀ w ∈ fields ifs p s, ∀ c ∈ w, Q c := by
  induction s generalizing p with
  | nil =>
    intro w hw
    rcases p with _ | done | _
    · exact absurd hw (by simp [fields])
    · simp only [fields, List.mem_singleton] at hw
      exact hw ▸ hp done rfl
    · exact absurd hw (by simp [fields])
  | cons c s ih =>
    have hs' : ∀ d ∈ s, d ∉ ifs → Q d := fun d hd => hs d (List.mem_cons_of_mem c hd)
    have hnil : ∀ done, Place.start = .word done → ∀ d ∈ done, Q d := nofun
    have hgap : ∀ done, Place.gap = .word done → ∀ d ∈ done, Q d := nofun
    by_cases hc : c ∈ ifs
    · have hcont : ifs.contains c = true := by simpa using hc
      rcases p with _ | done | _
      · rw [fields, if_pos hcont]
        split
        · exact ih hs' hnil
        · intro w hw
          rcases List.mem_cons.mp hw with rfl | hw
          · nofun
          · exact ih hs' hnil w hw
      · rw [fields, if_pos hcont]
        split
        · intro w hw
          rcases List.mem_cons.mp hw with rfl | hw
          · exact hp _ rfl
          · exact ih hs' hgap w hw
        · intro w hw
          rcases List.mem_cons.mp hw with rfl | hw
          · exact hp _ rfl
          · exact ih hs' hnil w hw
      · rw [fields, if_pos hcont]
        split
        · exact ih hs' hgap
        · exact ih hs' hnil
    · have hcont : ¬ ifs.contains c = true := by simpa using hc
      have hwhite : ¬ white ifs c = true := by simp [not_white_of_not_mem hc]
      have hQ : Q c := hs c List.mem_cons_self hc
      have hone : ∀ done, Place.word [c] = .word done → ∀ d ∈ done, Q d := by
        rintro done ⟨⟩ d hd
        exact List.mem_singleton.mp hd ▸ hQ
      rcases p with _ | done | _
      · rw [fields, if_neg hwhite, if_neg hcont]
        exact ih hs' hone
      · rw [fields, if_neg hwhite, if_neg hcont]
        refine ih hs' ?_
        rintro d ⟨⟩ e he
        rcases List.mem_append.mp he with he | he
        · exact hp done rfl e he
        · exact List.mem_singleton.mp he ▸ hQ
      · rw [fields, if_neg hwhite, if_neg hcont]
        exact ih hs' hone

/-- Nothing but white space has no words. -/
lemma split_eq_nil {s : Text} (hs : ∀ c ∈ s, c ∈ blanks) : split blanks s = [] := by
  induction s with
  | nil => rfl
  | cons c s ih =>
    rw [split_white (white_blanks.mpr (hs c List.mem_cons_self))]
    exact ih fun d hd => hs d (List.mem_cons_of_mem c hd)

/-- Where every delimiter is white space, the fields are words. -/
lemma isWord_of_mem_fields {s : Text} {p : Place} {w : Text} (h : w ∈ fields blanks p s)
    (hp : ∀ done, p = .word done → IsWord done) : IsWord w := by
  induction s generalizing p with
  | nil =>
    rcases p with _ | done | _
    · exact absurd h (by simp [fields])
    · simp only [fields, List.mem_singleton] at h
      exact h ▸ hp done rfl
    · exact absurd h (by simp [fields])
  | cons c s ih =>
    by_cases hc : c ∈ blanks
    · have hwhite : white blanks c = true := white_blanks.mpr hc
      rcases p with _ | done | _
      · rw [fields, if_pos hwhite] at h
        exact ih h (by simp)
      · rw [fields, if_pos hwhite, List.mem_cons] at h
        rcases h with rfl | h
        · exact hp _ rfl
        · exact ih h (by simp)
      · rw [fields, if_pos hwhite] at h
        exact ih h (by simp)
    · have hwhite : ¬ white blanks c = true := fun hw => hc (white_blanks.mp hw)
      have hcont : ¬ blanks.contains c = true := by simpa using hc
      rcases p with _ | done | _
      · rw [fields, if_neg hwhite, if_neg hcont] at h
        exact ih h (by rintro d ⟨rfl⟩; exact ⟨by simp, by simpa using hc⟩)
      · rw [fields, if_neg hwhite, if_neg hcont] at h
        refine ih h ?_
        rintro d ⟨rfl⟩
        have hdone := hp done rfl
        refine ⟨by simp, fun e he => ?_⟩
        rcases List.mem_append.mp he with he | he
        · exact hdone.2 e he
        · exact List.mem_singleton.mp he ▸ hc
      · rw [fields, if_neg hwhite, if_neg hcont] at h
        exact ih h (by rintro d ⟨rfl⟩; exact ⟨by simp, by simpa using hc⟩)

/-- The words of a text under the `IFS` a shell starts with. -/
theorem isWord_of_mem_split {s w : Text} (h : w ∈ split blanks s) : IsWord w :=
  isWord_of_mem_fields h (by simp)

/-- A field in progress is never lost. -/
lemma fields_word_ne_nil (ifs done s : Text) : fields ifs (.word done) s ≠ [] := by
  induction s generalizing done with
  | nil => simp [fields]
  | cons c s ih =>
    rw [fields]
    split
    · simp
    · split
      · simp
      · exact ih _

/-- Where every delimiter is white space, nothing is left to absorb behind a field. -/
lemma fields_gap (s : Text) : fields blanks .gap s = fields blanks .start s := by
  induction s with
  | nil => rfl
  | cons c s ih =>
    rw [fields, fields]
    by_cases hc : white blanks c = true
    · rw [if_pos hc, if_pos hc, ih]
    · have hcont : ¬ blanks.contains c = true := fun h => hc (white_blanks.mpr (by simpa using h))
      rw [if_neg hc, if_neg hc, if_neg hcont, if_neg hcont]

/-- Words with a blank in front of each are split apart again. -/
theorem split_words {ws : List Text} (hws : ∀ w ∈ ws, IsWord w) :
    split blanks (ws.flatMap fun w => ' ' :: w) = ws := by
  have hstop : ∀ (done : Text) (vs : List Text),
      fields blanks (.word done) (vs.flatMap fun w => ' ' :: w) =
        done :: split blanks (vs.flatMap fun w => ' ' :: w) := by
    intro done vs
    rcases vs with _ | ⟨v, vs⟩
    · rfl
    · rw [List.flatMap_cons, List.cons_append, split_white (by decide), fields,
        if_pos (by decide), fields_gap]
      rfl
  induction ws with
  | nil => rfl
  | cons w ws ih =>
    obtain ⟨hne, hw⟩ := hws w (by simp)
    rcases w with _ | ⟨c, w⟩
    · exact absurd rfl hne
    have hc : c ∉ blanks := hw c (by simp)
    have htail : ∀ d ∈ w, d ∉ blanks := fun d hd => hw d (List.mem_cons_of_mem c hd)
    rw [List.flatMap_cons, List.cons_append, split_white (by decide), List.cons_append, split,
      fields, if_neg (by simp [not_white_of_not_mem hc]), if_neg (by simpa using hc),
      fields_word_append htail, hstop, ih fun v hv => hws v (by simp [hv])]
    rfl

/-- Two fields with one delimiter between them that is no white space. -/
theorem split_pair {ifs v w : Text} {d : Char} (hd : d ∈ ifs) (hblank : d ∉ blanks)
    (hv : v ≠ []) (hv' : ∀ c ∈ v, c ∉ ifs) (hw : w ≠ []) (hw' : ∀ c ∈ w, c ∉ ifs) :
    split ifs (v ++ d :: w) = [v, w] := by
  rcases v with _ | ⟨c, v⟩
  · exact absurd rfl hv
  have hc : c ∉ ifs := hv' c (by simp)
  have htail : ∀ e ∈ v, e ∉ ifs := fun e he => hv' e (List.mem_cons_of_mem c he)
  have hwhite : ¬ white ifs d = true := by simp [white, hblank]
  rw [split, List.cons_append, fields, if_neg (by simp [not_white_of_not_mem hc]),
    if_neg (by simpa using hc), fields_word_append htail, fields, if_neg hwhite,
    if_pos (by simpa using hd)]
  exact congrArg _ (split_eq_self hw hw')

lemma split_ne_nil {c : Char} {s ifs : Text} (hc : c ∉ ifs) : split ifs (c :: s) ≠ [] := by
  rw [split, fields, if_neg (by simp [not_white_of_not_mem hc]), if_neg (by simpa using hc)]
  exact fields_word_ne_nil _ _ _

/-! ## Reading lines -/

/-- `read -r` takes one line off its input: the line, whether its newline was there,
and what is left. -/
def readLine (s : Text) : Text × Bool × Text :=
  match s.dropWhile (· ≠ '\n') with
  | [] => (s, false, [])
  | _ :: rest => (s.takeWhile (· ≠ '\n'), true, rest)

/-- A text without the white space of `IFS` at its ends. -/
def trim (ifs s : Text) : Text := (s.dropWhile (white ifs)).rdropWhile (white ifs)

/-- The values `read -r` gives to `n` variables, where the characters of `IFS` are white
space: one field each, and the last one the rest of the line. -/
def readVars (ifs : Text) : ℕ → Text → List Text
  | 0, _ => []
  | 1, s => [trim ifs s]
  | n + 2, s =>
    let s := s.dropWhile (white ifs)
    s.takeWhile (fun c => !white ifs c) :: readVars ifs (n + 1) (s.dropWhile (fun c => !white ifs c))

/-- The two values of `read -r first rest`. -/
def readTwo (ifs s : Text) : Text × Text :=
  ((readVars ifs 2 s).getD 0 [], (readVars ifs 2 s).getD 1 [])

lemma readTwo_fst (ifs s : Text) :
    (readTwo ifs s).1 = (s.dropWhile (white ifs)).takeWhile (fun c => !white ifs c) := rfl

lemma readTwo_snd (ifs s : Text) :
    (readTwo ifs s).2 =
      trim ifs ((s.dropWhile (white ifs)).dropWhile (fun c => !white ifs c)) := rfl

lemma white_empty : white [] = fun _ => false := by
  funext c
  simp [white]

/-- The first field has no white space in it. -/
lemma not_white_of_mem_readTwo {ifs s : Text} {c : Char} (h : c ∈ (readTwo ifs s).1) :
    white ifs c = false := by
  have := List.mem_takeWhile_imp (readTwo_fst ifs s ▸ h)
  simpa using this

lemma takeWhile_word {p : Char → Bool} {w s : Text} (hw : ∀ c ∈ w, p c = true)
    (hs : ∀ c, s.head? = some c → p c = false) :
    (w ++ s).takeWhile p = w ∧ (w ++ s).dropWhile p = s := by
  induction w with
  | nil =>
    rcases s with _ | ⟨c, s⟩
    · simp
    · simp [hs c rfl]
  | cons c w ih =>
    obtain ⟨htake, hdrop⟩ := ih fun d hd => hw d (by simp [hd])
    simp only [List.cons_append, hw c (by simp), List.takeWhile_cons_of_pos,
      List.dropWhile_cons_of_pos, htake, hdrop, and_self]

/-- A text with no white space at its ends is trimmed already. -/
lemma trim_word {w : Text} (hw : IsWord w) : trim blanks w = w := by
  have hne : ∀ c ∈ w, white blanks c = false := fun c hc => by
    have := hw.2 c hc
    exact Bool.eq_false_iff.mpr fun h => this (white_blanks.mp h)
  have hdrop : w.dropWhile (white blanks) = w := by
    rcases w with _ | ⟨c, w⟩
    · rfl
    · simp [hne c (by simp)]
  rw [trim, hdrop, List.rdropWhile_eq_self_iff]
  intro hl
  simp [hne _ (List.getLast_mem hl)]

/-- What is left of a text after trimming starts with a character that is no white
space. -/
lemma head_trim {ifs s : Text} {c : Char} {t : Text} (h : trim ifs s = c :: t) :
    white ifs c = false := by
  have hpre : trim ifs s <+: s.dropWhile (white ifs) := List.rdropWhile_prefix _ _
  rw [h] at hpre
  obtain ⟨u, hu⟩ := hpre
  have hne : s.dropWhile (white ifs) ≠ [] := by rw [← hu]; simp
  have hhead := List.head_dropWhile_not (white ifs) hne
  simpa [← hu] using hhead

/-- A trimmed text that is not empty has a word in it. -/
lemma split_trim_ne_nil {s : Text} (h : trim blanks s ≠ []) : split blanks (trim blanks s) ≠ [] := by
  rcases hs : trim blanks s with _ | ⟨c, t⟩
  · exact absurd hs h
  · have hc : c ∉ blanks := fun hm => by
      have := head_trim hs
      rw [white_blanks.mpr hm] at this
      exact Bool.noConfusion this
    exact split_ne_nil hc

lemma split_white_append {u : Text} (hu : ∀ c ∈ u, white blanks c = true) (s : Text) :
    split blanks (u ++ s) = split blanks s := by
  induction u with
  | nil => rfl
  | cons c u ih =>
    rw [List.cons_append, split_white (hu c List.mem_cons_self)]
    exact ih fun d hd => hu d (List.mem_cons_of_mem c hd)

/-- White space at the end makes no field, wherever the splitter stands. -/
lemma fields_append_white {u : Text} (hu : ∀ c ∈ u, white blanks c = true) (s : Text) (p : Place) :
    fields blanks p (s ++ u) = fields blanks p s := by
  have hnone : split blanks u = [] := split_eq_nil fun c hc => white_blanks.mp (hu c hc)
  induction s generalizing p with
  | nil =>
    rcases p with _ | done | _
    · exact hnone
    · rcases u with _ | ⟨c, u⟩
      · rfl
      · have hc := hu c List.mem_cons_self
        have hgap : fields blanks (.word done) (c :: u) = done :: fields blanks .gap u := by
          rw [fields, if_pos hc]
        rw [split_white hc] at hnone
        rw [List.nil_append, hgap, fields_gap, ← split, hnone]
        rfl
    · rw [List.nil_append, fields_gap]
      exact hnone
  | cons c s ih =>
    rcases p with _ | done | _ <;> simp only [List.cons_append, fields, ih]

/-- Trimming a text takes nothing from its fields. -/
theorem split_trim (s : Text) : split blanks (trim blanks s) = split blanks s := by
  have hpre : ∀ c ∈ s.takeWhile (white blanks), white blanks c = true := fun c hc =>
    List.mem_takeWhile_imp hc
  have hpost : ∀ c ∈ (s.dropWhile (white blanks)).rtakeWhile (white blanks), white blanks c = true :=
    fun c hc => List.mem_rtakeWhile_imp hc
  have hrest : trim blanks s ++ (s.dropWhile (white blanks)).rtakeWhile (white blanks) =
      s.dropWhile (white blanks) := List.rdropWhile_append_rtakeWhile
  calc split blanks (trim blanks s)
      = split blanks (s.dropWhile (white blanks)) := by
        rw [← hrest, split, split, fields_append_white hpost]
    _ = split blanks s := by
        conv_rhs => rw [← List.takeWhile_append_dropWhile (p := white blanks) (l := s)]
        rw [split_white_append hpre]

/-- Words with one blank between them are split apart again. -/
theorem split_intercalate {ws : List Text} (hws : ∀ w ∈ ws, IsWord w) :
    split blanks ([' '].intercalate ws) = ws := by
  have hcons : ∀ (w : Text) (ws : List Text),
      ' ' :: [' '].intercalate (w :: ws) = (w :: ws).flatMap fun v => ' ' :: v := by
    intro w ws
    induction ws generalizing w with
    | nil => simp [List.intercalate]
    | cons v ws ih =>
      rw [List.flatMap_cons, ← ih v]
      simp [List.intercalate]
  rcases ws with _ | ⟨w, ws⟩
  · rfl
  · have hblank : white blanks ' ' = true := by decide
    rw [← split_white hblank, hcons, split_words hws]

/-- White space in front of a line is not read. -/
lemma readVars_white {ifs : Text} {c : Char} (hc : white ifs c = true) (n : ℕ) (s : Text) :
    readVars ifs n (c :: s) = readVars ifs n s := by
  match n with
  | 0 => rfl
  | 1 => rw [readVars, readVars, trim, List.dropWhile_cons_of_pos hc, ← trim]
  | n + 2 => rw [readVars, readVars, List.dropWhile_cons_of_pos hc]

/-- A word at the front of a line goes to the first of several variables. -/
lemma readVars_word {w : Text} (hw : IsWord w) (n : ℕ) {s : Text}
    (hs : ∀ c, s.head? = some c → white blanks c = true) :
    readVars blanks (n + 2) (w ++ s) = w :: readVars blanks (n + 1) s := by
  have hblack : ∀ c ∈ w, (!white blanks c) = true := fun c hc => by
    have : white blanks c = false := Bool.eq_false_iff.mpr fun h => hw.2 c hc (white_blanks.mp h)
    simp [this]
  have hstart : (w ++ s).dropWhile (white blanks) = w ++ s := by
    rcases w with _ | ⟨c, w⟩
    · exact absurd rfl hw.1
    · have : white blanks c = false := by simpa using hblack c (by simp)
      simp [this]
  obtain ⟨htake, hdrop⟩ := takeWhile_word hblack (s := s) fun c hc => by simp [hs c hc]
  rw [readVars, hstart, htake, hdrop]

/-- A word and a blank at the front of a line. -/
lemma readVars_word_blank {w : Text} (hw : IsWord w) (n : ℕ) (s : Text) :
    readVars blanks (n + 2) (w ++ ' ' :: s) = w :: readVars blanks (n + 1) s := by
  have hblank : white blanks ' ' = true := by decide
  rw [readVars_word hw n (by rintro c ⟨⟩; exact hblank), readVars_white hblank]

/-- With an empty `IFS` a line goes to the first variable, and nothing to the others. -/
lemma readVars_empty (n : ℕ) (s : Text) :
    readVars [] (n + 2) s = s :: List.replicate (n + 1) [] := by
  have hnil : ∀ m : ℕ, readVars [] m [] = List.replicate m [] := by
    intro m
    induction m with
    | zero => rfl
    | succ m ih =>
      rcases m with _ | m
      · rfl
      · rw [readVars, List.replicate_succ]
        exact congrArg _ ih
  have hdrop : s.dropWhile (white []) = s := by
    rcases s <;> simp [white_empty]
  have hrest : s.dropWhile (fun c => !white [] c) = [] := by
    simp [white_empty]
  have htake : s.takeWhile (fun c => !white [] c) = s := by
    simp [white_empty]
  rw [readVars, hdrop, hrest, htake, hnil]

/-- With an empty `IFS` the first of two variables takes the whole line. -/
@[simp] lemma readTwo_empty (s : Text) : readTwo [] s = (s, []) := by
  rw [readTwo, readVars_empty]
  rfl

/-! ## Pathname expansion -/

/-- An element of a bracket expression. -/
inductive Item
  | range (lo hi : Char)
  | cls (name : Text)

/-- A piece of a pattern. -/
inductive Pat
  | star
  | any
  | char (c : Char)
  | bracket (neg : Bool) (items : List Item)

/-- The character classes of a bracket expression. -/
def inClass (name : Text) (c : Char) : Bool :=
  if name = "digit".toList then c.isDigit
  else if name = "alpha".toList then c.isAlpha
  else if name = "alnum".toList then c.isAlphanum
  else if name = "upper".toList then c.isUpper
  else if name = "lower".toList then c.isLower
  else if name = "space".toList then c.isWhitespace
  else if name = "blank".toList then c = ' ' || c = '\t'
  else if name = "xdigit".toList then
    c.isDigit || ('a' ≤ c && c ≤ 'f') || ('A' ≤ c && c ≤ 'F')
  else if name = "punct".toList then '!' ≤ c && c ≤ '~' && !c.isAlphanum
  else if name = "graph".toList then '!' ≤ c && c ≤ '~'
  else if name = "print".toList then ' ' ≤ c && c ≤ '~'
  else name = "cntrl".toList && (c < ' ' || c = '\x7f')

def Item.holds (c : Char) : Item → Bool
  | .range lo hi => lo ≤ c && c ≤ hi
  | .cls name => inClass name c

/-- The name of a character class, up to its `:]`. -/
def className : Text → Option (Text × Text)
  | ':' :: ']' :: s => some ([], s)
  | c :: s => (className s).map fun (name, rest) => (c :: name, rest)
  | [] => none

/-- The elements of a bracket expression up to the closing bracket, which is an element
itself where it comes first. -/
def bracketItems : ℕ → Bool → Text → Option (List Item × Text)
  | 0, _, _ => none
  | _ + 1, _, [] => none
  | n + 1, first, c :: s =>
    if c = ']' ∧ first = false then some ([], s)
    else
      let (item, rest) : Item × Text :=
        match c, s with
        | '[', ':' :: t =>
          match className t with
          | some (name, rest) => (.cls name, rest)
          | none => (.range c c, s)
        | _, '-' :: hi :: t => if hi = ']' then (.range c c, s) else (.range c hi, t)
        | _, _ => (.range c c, s)
      (bracketItems n false rest).map fun (items, rest) => (item :: items, rest)

/-- A pattern taken apart; an open bracket that is never closed stands for itself. -/
def parsePat : ℕ → Text → List Pat
  | 0, _ => []
  | _ + 1, [] => []
  | n + 1, '*' :: s => .star :: parsePat n s
  | n + 1, '?' :: s => .any :: parsePat n s
  | n + 1, '\\' :: c :: s => .char c :: parsePat n s
  | n + 1, '[' :: s =>
    let (neg, body) : Bool × Text :=
      match s with
      | '!' :: t => (true, t)
      | '^' :: t => (true, t)
      | _ => (false, s)
    match bracketItems (n + 1) true body with
    | some (items, rest) => .bracket neg items :: parsePat n rest
    | none => .char '[' :: parsePat n s
  | n + 1, c :: s => .char c :: parsePat n s

def Pat.one (c : Char) : Pat → Bool
  | .star => false
  | .any => true
  | .char d => c = d
  | .bracket neg items => (items.any (·.holds c)) != neg

/-- Whether the pieces of a pattern match the whole of a text. -/
def patMatch : List Pat → Text → Bool
  | [], s => s.isEmpty
  | .star :: ps, s => s.tails.any (patMatch ps)
  | _ :: _, [] => false
  | p :: ps, c :: s => p.one c && patMatch ps s

/-- `fnmatch`: whether a pattern matches a name. -/
def fnmatch (pattern name : Text) : Bool := patMatch (parsePat (pattern.length + 1) pattern) name

/-- The names a pattern may match: those that start with a dot only where the pattern
does. -/
def visible (pattern name : Text) : Bool :=
  match name with
  | [] => false
  | c :: _ => c ≠ '.' || pattern.head? = some '.'

/-- The names of a directory that a word stands for, in order; a word that matches none
stays as it is. -/
def glob (names : List Text) (word : Text) : List Text :=
  match (names.filter fun n => visible word n && fnmatch word n).insertionSort (· ≤ ·) with
  | [] => [word]
  | hits => hits

/-- The words of an unquoted expansion in a directory with these names. -/
def expand (ifs : Text) (names : List Text) (s : Text) : List Text :=
  (split ifs s).flatMap (glob names)

lemma mem_glob {names : List Text} {word n : Text} (h : n ∈ glob names word) :
    n = word ∨ n ∈ names ∧ n ≠ [] := by
  rw [glob] at h
  split at h
  · exact .inl (List.mem_singleton.mp h)
  · have hm := (List.mem_insertionSort (· ≤ ·)).mp h
    obtain ⟨hn, hv⟩ := List.mem_filter.mp hm
    refine .inr ⟨hn, ?_⟩
    rintro rfl
    simp [visible] at hv

/-- No expansion of a line of words is empty. -/
lemma ne_nil_of_mem_expand {names : List Text} {s n : Text} (h : n ∈ expand blanks names s) :
    n ≠ [] := by
  obtain ⟨w, hw, hn⟩ := List.mem_flatMap.mp h
  rcases mem_glob hn with rfl | ⟨-, hne⟩
  · exact (isWord_of_mem_split hw).1
  · exact hne

example : split blanks "  eth0  ppp0 ".toList = ["eth0".toList, "ppp0".toList] := by decide
example : split ['.'] ".esp.shore".toList = [[], "esp".toList, "shore".toList] := by decide
example : expand blanks ["ppp1".toList, "eth0".toList, "ppp0".toList] "eth[0-9]* wlan0 *".toList
    = ["eth0".toList, "wlan0".toList, "eth0".toList, "ppp0".toList, "ppp1".toList] := by decide

end EspLinux.Lib.Words
