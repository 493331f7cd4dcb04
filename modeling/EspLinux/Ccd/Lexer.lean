import EspLinux.Ccd.Device
import EspLinux.Ccd.Text
import EspLinux.Lib.Decimal

/-!
# The lexical analyzer of the text parser

`get_token` skips white space and takes a word, a number or a single other character off the
input.  A word or a number is taken only when the character behind it is there too; else
nothing is taken, and the input is looked at again when more of it has arrived.  So the
tokens of an input do not depend on the pieces in which it arrives (`Reads.append`).
-/

namespace EspLinux.Ccd

open EspLinux.Lib

/-! ## Tokens -/

/-- White space, as `get_token` skips it. -/
def isBlank (b : UInt8) : Bool := decide (b.toNat ≤ 32)

/-- A capital letter. -/
def isUpper (b : UInt8) : Bool := decide (65 ≤ b.toNat ∧ b.toNat ≤ 90)

/-- A single character of the input, put in upper case. -/
def upper (b : UInt8) : UInt8 := if 97 ≤ b.toNat ∧ b.toNat ≤ 122 then b - 32 else b

/-- The value of a number, as an `unsigned int`. -/
def num_value (digits : List UInt8) : ℕ :=
  digits.foldl (fun v b => u32 (v * 10 + (b.toNat - 48))) 0

/-- What is taken off the input. -/
inductive Lexeme
  | word (letters : List UInt8)
  | num (value : ℕ)
  | punct (b : UInt8)
deriving DecidableEq

/-- `CCD_NUM_TOKEN` -/
def CCD_NUM_TOKEN : ℕ := 0xFE01

/-- `CCD_UNKNOWN_TOKEN` -/
def CCD_UNKNOWN_TOKEN : ℕ := 0xFFFF

/-- The token for what has been taken.  The comparison with the strings stops at the end of
the word, so a word stands for the first string that starts with it. -/
def Lexeme.token (strings : List (String × ℕ)) : Lexeme → ℕ
  | word letters =>
    match strings.find? fun x => letters.isPrefixOf (chars x.1) with
    | some x => x.2
    | none => CCD_UNKNOWN_TOKEN
  | num _ => CCD_NUM_TOKEN
  | punct b => b.toNat

/-- What `get_token` leaves in `value`. -/
def Lexeme.value : Lexeme → ℕ
  | num value => value
  | _ => 0

/-- Take a lexeme off the input, or `none` if the input is exhausted. -/
def next_lexeme (buf : List UInt8) : Option (Lexeme × List UInt8) :=
  match buf.dropWhile isBlank with
  | [] => none
  | b :: l =>
    if isUpper b then
      if l.dropWhile isUpper = [] then none
      else some (.word (b :: l.takeWhile isUpper), l.dropWhile isUpper)
    else if isDigit b then
      if l.dropWhile isDigit = [] then none
      else some (.num (num_value (b :: l.takeWhile isDigit)), l.dropWhile isDigit)
    else some (.punct b, l)

/-- `get_token`: the token, the value of a number, and the rest of the input. -/
def get_token (strings : List (String × ℕ)) (buf : List UInt8) : Option (ℕ × ℕ × List UInt8) :=
  (next_lexeme buf).map fun x => (x.1.token strings, x.1.value, x.2)

/-! ## Reading an input -/

/-- The lexemes of an input and what is left unread at its end. -/
inductive Reads : List UInt8 → List Lexeme → List UInt8 → Prop
  | stop {buf : List UInt8} : next_lexeme buf = none → Reads buf [] buf
  | more {buf rest u : List UInt8} {x : Lexeme} {ls : List Lexeme} :
      next_lexeme buf = some (x, rest) → Reads rest ls u → Reads buf (x :: ls) u

variable {a b buf rest u v : List UInt8} {x : Lexeme} {ls ls' : List Lexeme} {c : UInt8}

lemma length_dropWhile_le (p : UInt8 → Bool) (l : List UInt8) : (l.dropWhile p).length ≤ l.length :=
  (List.dropWhile_sublist p).length_le

/-- A lexeme is taken off the front of the input. -/
lemma next_lexeme_length (h : next_lexeme buf = some (x, rest)) : rest.length < buf.length := by
  have hle := length_dropWhile_le isBlank buf
  unfold next_lexeme at h
  split at h
  · cases h
  · rename_i b l hbuf
    rw [hbuf, List.length_cons] at hle
    split at h
    · split at h
      · cases h
      · cases h
        have := length_dropWhile_le isUpper l
        omega
    · split at h
      · split at h
        · cases h
        · cases h
          have := length_dropWhile_le isDigit l
          omega
      · cases h
        omega

lemma next_lexeme_nil : next_lexeme [] = none := rfl

lemma dropWhile_append_of_ne {p : UInt8 → Bool} (h : a.dropWhile p ≠ []) :
    (a ++ b).dropWhile p = a.dropWhile p ++ b ∧ (a ++ b).takeWhile p = a.takeWhile p := by
  induction a with
  | nil => exact absurd rfl h
  | cons c a ih =>
    by_cases hc : p c = true
    · rw [List.dropWhile_cons_of_pos hc] at h
      obtain ⟨h₁, h₂⟩ := ih h
      rw [List.cons_append, List.dropWhile_cons_of_pos hc, List.dropWhile_cons_of_pos hc,
        List.takeWhile_cons_of_pos hc, List.takeWhile_cons_of_pos hc, h₁, h₂]
      exact ⟨rfl, rfl⟩
    · rw [List.cons_append, List.dropWhile_cons_of_neg hc, List.dropWhile_cons_of_neg hc,
        List.takeWhile_cons_of_neg hc, List.takeWhile_cons_of_neg hc]
      exact ⟨rfl, rfl⟩

/-- More input does not change a lexeme that has been found. -/
lemma next_lexeme_append (h : next_lexeme a = some (x, rest)) :
    next_lexeme (a ++ b) = some (x, rest ++ b) := by
  unfold next_lexeme at h ⊢
  split at h
  · cases h
  · rename_i d l ha
    have hne : a.dropWhile isBlank ≠ [] := by
      rw [ha]
      exact List.cons_ne_nil _ _
    have hab : (a ++ b).dropWhile isBlank = d :: (l ++ b) := by
      rw [(dropWhile_append_of_ne hne).1, ha, List.cons_append]
    rw [hab]
    dsimp only
    split at h
    · rename_i hd
      split at h
      · cases h
      · rename_i hl
        cases h
        obtain ⟨h₁, h₂⟩ := dropWhile_append_of_ne (b := b) hl
        rw [if_pos hd, h₁, h₂, if_neg (by simp [hl])]
    · rename_i hd
      rw [if_neg hd]
      split at h
      · rename_i hd'
        split at h
        · cases h
        · rename_i hl
          cases h
          obtain ⟨h₁, h₂⟩ := dropWhile_append_of_ne (b := b) hl
          rw [if_pos hd', h₁, h₂, if_neg (by simp [hl])]
      · rename_i hd'
        cases h
        rw [if_neg hd']

namespace Reads

/-- Every input is read to its end. -/
lemma total (buf : List UInt8) : ∃ ls u, Reads buf ls u := by
  induction hn : buf.length using Nat.strong_induction_on generalizing buf with
  | _ n ih =>
    cases h : next_lexeme buf with
    | none => exact ⟨[], buf, .stop h⟩
    | some y =>
      obtain ⟨x, rest⟩ := y
      obtain ⟨ls, u, hr⟩ := ih rest.length (hn ▸ next_lexeme_length h) rest rfl
      exact ⟨x :: ls, u, .more h hr⟩

lemma unique (h : Reads buf ls u) (h' : Reads buf ls' v) : ls = ls' ∧ u = v := by
  induction h generalizing ls' v with
  | stop hn =>
    cases h' with
    | stop => exact ⟨rfl, rfl⟩
    | more hs =>
      rw [hn] at hs
      cases hs
  | more hs _ ih =>
    cases h' with
    | stop hn =>
      rw [hs] at hn
      cases hn
    | more hs' hr =>
      rw [hs] at hs'
      cases hs'
      obtain ⟨rfl, rfl⟩ := ih hr
      exact ⟨rfl, rfl⟩

/-- What is left unread holds no lexeme. -/
lemma unread (h : Reads buf ls u) : next_lexeme u = none := by
  induction h with
  | stop hn => exact hn
  | more _ _ ih => exact ih

/-- The input may arrive in two pieces. -/
lemma append (h : Reads a ls u) (h' : Reads (u ++ b) ls' v) : Reads (a ++ b) (ls ++ ls') v := by
  induction h with
  | stop _ => exact h'
  | more hs _ ih => exact .more (next_lexeme_append hs) (ih h')

/-- The second piece goes on where the first one ends. -/
lemma split (h : Reads (a ++ b) ls v) :
    ∃ ls₁ ls₂ u, ls = ls₁ ++ ls₂ ∧ Reads a ls₁ u ∧ Reads (u ++ b) ls₂ v := by
  obtain ⟨ls₁, u, h₁⟩ := total a
  obtain ⟨ls₂, w, h₂⟩ := total (u ++ b)
  obtain ⟨rfl, rfl⟩ := h.unique (h₁.append h₂)
  exact ⟨ls₁, ls₂, u, rfl, h₁, h₂⟩

lemma length_le (h : Reads buf ls u) : ls.length + u.length ≤ buf.length := by
  induction h with
  | stop _ => simp
  | more hs _ ih =>
    have := next_lexeme_length hs
    rw [List.length_cons]
    omega

end Reads

/-! ## Spelling -/

/-- The characters of a lexeme. -/
inductive SpelledBy : Lexeme → List UInt8 → Prop
  | word {l : List UInt8} : l ≠ [] → (∀ b ∈ l, isUpper b = true) → SpelledBy (.word l) l
  | num {l : List UInt8} : l ≠ [] → (∀ b ∈ l, isDigit b = true) → SpelledBy (.num (num_value l)) l
  | punct {b : UInt8} : isBlank b = false → isUpper b = false → isDigit b = false →
      SpelledBy (.punct b) [b]

/-- The character ends a lexeme in front of it. -/
def Lexeme.endsAt (b : UInt8) : Lexeme → Bool
  | word _ => !isUpper b
  | num _ => !isDigit b
  | punct _ => true

/-- A text of lexemes, with white space in front of them and at the end.  It may be left out
where the lexemes can be told apart without it. -/
inductive Spells : List Lexeme → List UInt8 → Prop
  | nil {gap : List UInt8} : (∀ b ∈ gap, isBlank b = true) → Spells [] gap
  | cons {gap l rest : List UInt8} {x : Lexeme} {ls : List Lexeme} :
      (∀ b ∈ gap, isBlank b = true) → SpelledBy x l →
      ((∃ b, x = .punct b) ∨ ∃ b rest', rest = b :: rest' ∧ x.endsAt b = true) →
      Spells ls rest → Spells (x :: ls) (gap ++ (l ++ rest))

lemma Spells.cons_left {l rest : List UInt8} (hl : SpelledBy x l)
    (hend : ∃ b rest', rest = b :: rest' ∧ x.endsAt b = true) (h : Spells ls rest) :
    Spells (x :: ls) (l ++ rest) :=
  @Spells.cons [] _ _ _ _ (by simp) hl (.inr hend) h

lemma Spells.punct (h₁ : isBlank c = false) (h₂ : isUpper c = false) (h₃ : isDigit c = false)
    (h : Spells ls rest) : Spells (.punct c :: ls) (c :: rest) :=
  @Spells.cons [] _ _ _ _ (by simp) (.punct h₁ h₂ h₃) (.inl ⟨c, rfl⟩) h

lemma dropWhile_blank {gap : List UInt8} (h : ∀ b ∈ gap, isBlank b = true) (l : List UInt8) :
    (gap ++ l).dropWhile isBlank = l.dropWhile isBlank := by
  rw [List.dropWhile_append_of_pos h]

lemma next_lexeme_blank {gap : List UInt8} (h : ∀ b ∈ gap, isBlank b = true) (l : List UInt8) :
    next_lexeme (gap ++ l) = next_lexeme l := by
  unfold next_lexeme
  rw [dropWhile_blank h]

lemma isBlank_of_isUpper (h : isUpper c = true) : isBlank c = false := by
  simp only [isUpper, isBlank, decide_eq_true_eq, decide_eq_false_iff_not] at *
  omega

lemma isBlank_of_isDigit (h : isDigit c = true) : isBlank c = false := by
  simp only [isDigit, isBlank, decide_eq_true_eq, decide_eq_false_iff_not] at *
  omega

lemma isUpper_of_isDigit (h : isDigit c = true) : isUpper c = false := by
  simp only [isDigit, isUpper, decide_eq_true_eq, decide_eq_false_iff_not] at *
  omega

/-- A run of characters of one kind ends in front of the first other one. -/
lemma run_append {p : UInt8 → Bool} {l : List UInt8} (hl : ∀ b ∈ l, p b = true) (hc : p c = false)
    (rest : List UInt8) :
    (l ++ c :: rest).dropWhile p = c :: rest ∧ (l ++ c :: rest).takeWhile p = l := by
  have hc' : ¬ p c = true := by simp [hc]
  rw [List.dropWhile_append_of_pos hl, List.dropWhile_cons_of_neg hc',
    List.takeWhile_append_of_pos hl, List.takeWhile_cons_of_neg hc', List.append_nil]
  exact ⟨rfl, rfl⟩

/-- The characters of a lexeme are read as it. -/
lemma next_lexeme_spelled {l : List UInt8} (h : SpelledBy x l)
    (hend : (∃ b, x = .punct b) ∨ ∃ b rest', rest = b :: rest' ∧ x.endsAt b = true) :
    next_lexeme (l ++ rest) = some (x, rest) := by
  cases h with
  | @word l hne hl =>
    obtain ⟨d, l, rfl⟩ := List.exists_cons_of_ne_nil hne
    obtain ⟨_, hx⟩ | ⟨c, rest', rfl, hc⟩ := hend
    · cases hx
    have hd := hl d List.mem_cons_self
    obtain ⟨h₁, h₂⟩ := run_append (p := isUpper) (fun b hb => hl b (List.mem_cons_of_mem d hb))
      (by simpa [Lexeme.endsAt] using hc) rest'
    unfold next_lexeme
    rw [List.cons_append, List.dropWhile_cons_of_neg (by simp [isBlank_of_isUpper hd])]
    dsimp only
    rw [if_pos hd, h₁, h₂, if_neg (List.cons_ne_nil _ _)]
  | @num l hne hl =>
    obtain ⟨d, l, rfl⟩ := List.exists_cons_of_ne_nil hne
    obtain ⟨_, hx⟩ | ⟨c, rest', rfl, hc⟩ := hend
    · cases hx
    have hd := hl d List.mem_cons_self
    obtain ⟨h₁, h₂⟩ := run_append (p := isDigit) (fun b hb => hl b (List.mem_cons_of_mem d hb))
      (by simpa [Lexeme.endsAt] using hc) rest'
    unfold next_lexeme
    rw [List.cons_append, List.dropWhile_cons_of_neg (by simp [isBlank_of_isDigit hd])]
    dsimp only
    rw [if_neg (by simp [isUpper_of_isDigit hd]), if_pos hd, h₁, h₂, if_neg (List.cons_ne_nil _ _)]
  | @punct b h₁ h₂ h₃ =>
    unfold next_lexeme
    rw [List.singleton_append, List.dropWhile_cons_of_neg (by simp [h₁])]
    dsimp only
    rw [if_neg (by simp [h₂]), if_neg (by simp [h₃])]

/-- A text is read as the lexemes that it spells. -/
lemma Spells.reads {text : List UInt8} (h : Spells ls text) :
    ∃ u, Reads text ls u ∧ ∀ b ∈ u, isBlank b = true := by
  induction h with
  | @nil gap hgap =>
    have hnone : next_lexeme gap = none := by
      have := next_lexeme_blank hgap []
      rwa [List.append_nil, next_lexeme_nil] at this
    exact ⟨gap, .stop hnone, hgap⟩
  | cons hgap hl hend _ ih =>
    obtain ⟨u, hu, hblank⟩ := ih
    refine ⟨u, .more ?_ hu, hblank⟩
    rw [next_lexeme_blank hgap]
    exact next_lexeme_spelled hl hend

/-- White space in front of a text does not matter. -/
lemma Reads.blank {gap text : List UInt8} (hgap : ∀ b ∈ gap, isBlank b = true)
    (h : Reads text (x :: ls) u) : Reads (gap ++ text) (x :: ls) u := by
  cases h with
  | more hs hr => exact .more ((next_lexeme_blank hgap _).trans hs) hr

end EspLinux.Ccd
