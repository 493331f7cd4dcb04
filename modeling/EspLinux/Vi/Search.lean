import EspLinux.Vi.Motions
import EspLinux.Vi.Prompt

/-!
# vi: searching

`char_search` tries one position after another.  Forward it stops before the last character, and
compares what lies behind the end of the text as well; back it begins the length of the pattern
before the position it is given, so that nearer occurrences are passed over.
-/

namespace EspLinux.Vi

open Lib

namespace Buffer

variable {b : Buffer} {pat : List Char} {p q s i : ℤ} {n : ℕ}

/-! ## Positions that are tried -/

/-- The memory from `p` on holds the pattern. -/
def Matches (b : Buffer) (pat : List Char) (p : ℤ) : Prop := b.mycmp false p pat = true

instance (b : Buffer) (pat : List Char) (p : ℤ) : Decidable (b.Matches pat p) :=
  inferInstanceAs (Decidable (_ = true))

lemma matches_cons {c : Char} : b.Matches (c :: pat) p ↔ b.mem p = c ∧ b.Matches pat (p + 1) := by
  simp [Matches, mycmp]

lemma search_from_succ {inc : ℤ} : b.search_from false pat inc (n + 1) p =
    if b.Matches pat p then some p else b.search_from false pat inc n (p + inc) := rfl

/-- The search ends at the first position that matches. -/
lemma search_from_eq_some {inc : ℤ} : b.search_from false pat inc n p = some q ↔
    ∃ j < n, q = p + inc * j ∧ b.Matches pat q ∧ ∀ i < j, ¬ b.Matches pat (p + inc * i) := by
  induction n generalizing p with
  | zero => simp [search_from]
  | succ n ih =>
    rw [search_from_succ]
    by_cases hp : b.Matches pat p
    · rw [if_pos hp, Option.some.injEq]
      constructor
      · rintro rfl
        exact ⟨0, by omega, by simp, hp, nofun⟩
      · rintro ⟨j, -, hq, -, hno⟩
        obtain rfl | hj := j.eq_zero_or_pos
        · simpa using hq.symm
        · exact absurd (by simpa using hp) (hno 0 hj)
    · rw [if_neg hp, ih]
      constructor
      · rintro ⟨j, hj, hq, hmatch, hno⟩
        refine ⟨j + 1, by omega, by rw [hq]; push_cast; ring, hmatch, fun i hi => ?_⟩
        cases i with
        | zero => simpa using hp
        | succ i =>
          have hstep : p + inc * ((i + 1 : ℕ) : ℤ) = p + inc + inc * i := by
            push_cast
            ring
          rw [hstep]
          exact hno i (by omega)
      · rintro ⟨j, hj, hq, hmatch, hno⟩
        cases j with
        | zero =>
          have hpq : q = p := by simpa using hq
          exact absurd (hpq ▸ hmatch) hp
        | succ j =>
          refine ⟨j, by omega, by rw [hq]; push_cast; ring, hmatch, fun i hi => ?_⟩
          have hstep : p + inc + inc * (i : ℤ) = p + inc * ((i + 1 : ℕ) : ℤ) := by
            push_cast
            ring
          rw [hstep]
          exact hno (i + 1) (by omega)

lemma search_from_eq_none {inc : ℤ} : b.search_from false pat inc n p = none ↔
    ∀ j < n, ¬ b.Matches pat (p + inc * j) := by
  constructor
  · intro h j hj hmatch
    -- the first of the positions that match is found
    have hfirst := Nat.find_spec (p := fun j => b.Matches pat (p + inc * j)) ⟨j, hmatch⟩
    have hle := Nat.find_min' (p := fun j => b.Matches pat (p + inc * j)) ⟨j, hmatch⟩ hmatch
    have hsome : b.search_from false pat inc n p = some _ := search_from_eq_some.mpr
      ⟨_, lt_of_le_of_lt hle hj, rfl, hfirst, fun i hi => Nat.find_min ⟨j, hmatch⟩ hi⟩
    rw [h] at hsome
    cases hsome
  · intro h
    rw [Option.eq_none_iff_forall_ne_some]
    intro q hq
    obtain ⟨j, hj, rfl, hmatch, -⟩ := search_from_eq_some.mp hq
    exact h j hj hmatch

/-- Forward the first match before the last character is found. -/
lemma char_search_forward : b.char_search false p pat .forward false = some q ↔
    p ≤ q ∧ q < b.end_ - 1 ∧ b.Matches pat q ∧ ∀ i, p ≤ i → i < q → ¬ b.Matches pat i := by
  simp only [char_search, Bool.false_eq_true, if_false]
  rw [search_from_eq_some]
  constructor
  · rintro ⟨j, hj, rfl, hmatch, hno⟩
    refine ⟨by omega, by omega, hmatch, fun i hi hi' => ?_⟩
    have hi'' := hno (i - p).toNat (by omega)
    have hpos : p + 1 * ((i - p).toNat : ℤ) = i := by omega
    rwa [hpos] at hi''
  · rintro ⟨hpq, hq, hmatch, hno⟩
    exact ⟨(q - p).toNat, by omega, by omega, hmatch, fun i hi => hno _ (by omega) (by omega)⟩

lemma char_search_forward_none : b.char_search false p pat .forward false = none ↔
    ∀ i, p ≤ i → i < b.end_ - 1 → ¬ b.Matches pat i := by
  simp only [char_search, Bool.false_eq_true, if_false]
  rw [search_from_eq_none]
  constructor
  · intro h i hi hi'
    have hi'' := h (i - p).toNat (by omega)
    have hpos : p + 1 * ((i - p).toNat : ℤ) = i := by omega
    rwa [hpos] at hi''
  · exact fun h j hj => h _ (by omega) (by omega)

/-- Back the last match is found that ends before the position. -/
lemma char_search_back : b.char_search false p pat .back false = some q ↔
    0 ≤ q ∧ q + pat.length ≤ p ∧ b.Matches pat q ∧
      ∀ i, q < i → i + pat.length ≤ p → ¬ b.Matches pat i := by
  simp only [char_search, Bool.false_eq_true, if_false]
  rw [search_from_eq_some]
  constructor
  · rintro ⟨j, hj, rfl, hmatch, hno⟩
    refine ⟨by omega, by omega, hmatch, fun i hi hi' => ?_⟩
    have hi'' := hno (p - pat.length - i).toNat (by omega)
    have hpos : p - pat.length + -1 * ((p - pat.length - i).toNat : ℤ) = i := by omega
    rwa [hpos] at hi''
  · rintro ⟨h0, hq, hmatch, hno⟩
    exact ⟨(p - pat.length - q).toNat, by omega, by omega, hmatch,
      fun i hi => hno _ (by omega) (by omega)⟩

lemma char_search_back_none : b.char_search false p pat .back false = none ↔
    ∀ i, 0 ≤ i → i + pat.length ≤ p → ¬ b.Matches pat i := by
  simp only [char_search, Bool.false_eq_true, if_false]
  rw [search_from_eq_none]
  constructor
  · intro h i h0 hi
    have hi'' := h (p - pat.length - i).toNat (by omega)
    have hpos : p - pat.length + -1 * ((p - pat.length - i).toNat : ℤ) = i := by omega
    rwa [hpos] at hi''
  · exact fun h j hj => h _ (by omega) (by omega)

/-! ## Where a search goes -/

/-- The pattern occurs at `i`, wholly inside the text. -/
def Occurs (b : Buffer) (pat : List Char) (i : ℤ) : Prop :=
  0 ≤ i ∧ i + pat.length ≤ b.end_ ∧ b.Matches pat i

/-- What is in the memory at `i` matches only with bytes from behind the end of the text. -/
def Stray (b : Buffer) (pat : List Char) (i : ℤ) : Prop :=
  0 ≤ i ∧ i < b.end_ - 1 ∧ b.end_ < i + pat.length ∧ b.Matches pat i

/-- The nearest occurrence from `dot`: the first one behind it or the last one before it, else the
first or last one of all, else `dot` itself. -/
def Nearest (b : Buffer) (pat : List Char) (dot : ℤ) : Dir → ℤ → Prop
  | .forward, d =>
    (b.Occurs pat d ∧ dot < d ∧ ∀ i, b.Occurs pat i → dot < i → d ≤ i) ∨
      ((∀ i, b.Occurs pat i → i ≤ dot) ∧ b.Occurs pat d ∧ ∀ i, b.Occurs pat i → d ≤ i) ∨
      (∀ i, ¬ b.Occurs pat i) ∧ d = dot
  | .back, d =>
    (b.Occurs pat d ∧ d < dot ∧ ∀ i, b.Occurs pat i → i < dot → i ≤ d) ∨
      ((∀ i, b.Occurs pat i → dot ≤ i) ∧ b.Occurs pat d ∧ ∀ i, b.Occurs pat i → i ≤ d) ∨
      (∀ i, ¬ b.Occurs pat i) ∧ d = dot

/-- Where `find_pattern` goes: the search from `dot`, the search from the other end, or `dot`. -/
def search_target (b : Buffer) (pat : List Char) (dot : ℤ) (dir : Dir) : ℤ :=
  match b.char_search false (dot + dir.inc) pat dir false with
  | some q => q
  | none =>
    (b.char_search false (if dir = .back then b.end_ - 1 else 0) pat dir false).getD dot

/-- When the search finds the nearest occurrence.  Forward there is one behind `dot` that begins
before the last character, or else there is none that begins with it and no stray match is taken for
one.  Back the last one before `dot` ends before the character before `dot`, or it is the first one
to be met from the end; and if there is none before `dot`, none is at the end of the text. -/
def SearchesWell (b : Buffer) (pat : List Char) (dot : ℤ) : Dir → Prop
  | .forward =>
    (∃ i, dot < i ∧ i < b.end_ - 1 ∧ b.Occurs pat i) ∨
      ¬ (dot < b.end_ - 1 ∧ b.Occurs pat (b.end_ - 1)) ∧ (∀ i, dot < i → ¬ b.Stray pat i) ∧
        ((∃ i, b.Occurs pat i) ∨ ∀ i, b.Stray pat i → dot ≤ i)
  | .back =>
    (∃ m, b.Occurs pat m ∧ m < dot ∧ (∀ i, b.Occurs pat i → i < dot → i ≤ m) ∧
      (m + pat.length < dot ∨ (∀ i, b.Occurs pat i → dot ≤ i + pat.length) ∧
        m + pat.length < b.end_ ∧ ∀ i, b.Occurs pat i → i + pat.length < b.end_ → i ≤ m)) ∨
      (∀ i, b.Occurs pat i → dot ≤ i) ∧
        (¬ b.Occurs pat (b.end_ - pat.length) ∨
          b.end_ - pat.length = dot ∧ ∀ i, b.Occurs pat i → i = dot)

/-- What is matched before the last character is an occurrence or a stray match. -/
lemma matches_iff (h0 : 0 ≤ i) (hi : i < b.end_ - 1) :
    b.Matches pat i ↔ b.Occurs pat i ∨ b.Stray pat i := by
  rw [Occurs, Stray]
  constructor
  · intro h
    by_cases hin : i + pat.length ≤ b.end_
    · exact .inl ⟨h0, hin, h⟩
    · exact .inr ⟨h0, hi, by omega, h⟩
  · rintro (h | h)
    · exact h.2.2
    · exact h.2.2.2

lemma Matches.mem_eq (h : b.Matches pat p) {j : ℕ} (hj : j < pat.length) : b.mem (p + j) = pat[j] := by
  induction pat generalizing p j with
  | nil => cases hj
  | cons c pat ih =>
    obtain ⟨hc, hrest⟩ := matches_cons.mp h
    cases j with
    | zero => simpa using hc
    | succ j =>
      have hstep : p + ((j + 1 : ℕ) : ℤ) = p + 1 + j := by
        push_cast
        ring
      rw [hstep, ih hrest (by simpa using hj)]
      rfl

/-- A search forward searches well in a text that a newline ends. -/
lemma searchesWell_forward (hne : 0 < pat.length) (hnl : b.mem (b.end_ - 1) = '\n')
    (hpat : '\n' ∉ pat) (dot : ℤ) : b.SearchesWell pat dot .forward := by
  have hlast : ∀ i, i ≤ b.end_ - 1 → b.end_ - 1 < i + pat.length → ¬ b.Matches pat i := by
    intro i hi hi' hmatch
    have hmem := hmatch.mem_eq (j := (b.end_ - 1 - i).toNat) (by omega)
    have hpos : i + ((b.end_ - 1 - i).toNat : ℤ) = b.end_ - 1 := by omega
    rw [hpos, hnl] at hmem
    exact hpat (hmem ▸ List.getElem_mem _)
  have hstray : ∀ i, ¬ b.Stray pat i := fun i hi =>
    hlast i (by have := hi.2.1; omega) (by have := hi.2.2.1; omega) hi.2.2.2
  refine .inr ⟨fun h => ?_, fun i _ => hstray i, .inr fun i hi => absurd hi (hstray i)⟩
  exact hlast _ (le_refl _) (by omega) h.2.2.2

lemma search_target_forward (hne : 0 < pat.length) {dot : ℤ} (h0 : 0 ≤ dot) (hdot : dot < max b.end_ 1) :
    b.Nearest pat dot .forward (b.search_target pat dot .forward) ↔ b.SearchesWell pat dot .forward := by
  have hbefore : ∀ i, b.Occurs pat i → i ≤ b.end_ - 1 := fun i hi => by
    have := hi.2.1
    omega
  have hstray : ∀ i j, b.Stray pat i → b.Occurs pat j → j < i := fun i j hi hj => by
    have := hi.2.2.1
    have := hj.2.1
    omega
  rw [search_target]
  cases h₁ : b.char_search false (dot + Dir.forward.inc) pat .forward false with
  | some q =>
    obtain ⟨hq, hend, hmatch, hfirst⟩ := char_search_forward.mp h₁
    have hpos : dot < q := hq
    have hocc : ∀ i, b.Occurs pat i → dot < i → i < q → False := fun i hi hd hlt => hfirst i hd hlt hi.2.2
    dsimp only [Nearest, SearchesWell]
    constructor
    · rintro (⟨hqo, -, -⟩ | ⟨-, hqo, -⟩ | ⟨-, rfl⟩)
      · exact .inl ⟨q, hpos, hend, hqo⟩
      · exact .inl ⟨q, hpos, hend, hqo⟩
      · omega
    · intro hwell
      have hqo : b.Occurs pat q := by
        refine ((matches_iff (by omega) hend).mp hmatch).resolve_right fun hs => ?_
        obtain ⟨i, hi, -, hio⟩ | ⟨-, hno, -⟩ := hwell
        · exact hocc i hio hi (hstray q i hs hio)
        · exact hno q hpos hs
      refine .inl ⟨hqo, hpos, fun i hi hd => ?_⟩
      by_contra hlt
      exact hocc i hi hd (by omega)
  | none =>
    have hnone := char_search_forward_none.mp h₁
    have hbehind : ∀ i, dot < i → i < b.end_ - 1 → ¬ b.Matches pat i := hnone
    rw [if_neg (by decide)]
    cases h₂ : b.char_search false 0 pat .forward false with
    | some q =>
      obtain ⟨hq, hend, hmatch, hfirst⟩ := char_search_forward.mp h₂
      have hle : q ≤ dot := by
        by_contra hlt
        exact hbehind q (by omega) hend hmatch
      have hmin : ∀ i, b.Occurs pat i → q ≤ i := fun i hi => by
        by_contra hlt
        exact hfirst i hi.1 (by omega) hi.2.2
      dsimp only [Nearest, SearchesWell, Option.getD_some]
      constructor
      · rintro (⟨-, hlt, -⟩ | ⟨hall, hqo, -⟩ | ⟨hno, rfl⟩)
        · omega
        · refine .inr ⟨fun h => ?_, fun i hi hs => hbehind i hi hs.2.1 hs.2.2.2, .inl ⟨q, hqo⟩⟩
          have := hall _ h.2
          omega
        · refine .inr ⟨fun h => hno _ h.2, fun i hi hs => hbehind i hi hs.2.1 hs.2.2.2, .inr ?_⟩
          intro i hs
          by_contra hlt
          exact hfirst i hs.1 (by omega) hs.2.2.2
      · rintro (⟨i, hi, hie, hio⟩ | ⟨hlast, -, hsome⟩)
        · exact absurd hio.2.2 (hbehind i hi hie)
        · by_cases hex : ∃ i, b.Occurs pat i
          · obtain ⟨i, hio⟩ := hex
            have hqo : b.Occurs pat q := by
              refine ((matches_iff hq hend).mp hmatch).resolve_right fun hs => ?_
              have := hstray q i hs hio
              have := hmin i hio
              omega
            refine .inr (.inl ⟨fun j hj => ?_, hqo, hmin⟩)
            by_contra hlt
            by_cases hje : j < b.end_ - 1
            · exact hbehind j (by omega) hje hj.2.2
            · have hj' : j = b.end_ - 1 := by
                have := hbefore j hj
                omega
              exact hlast ⟨by omega, hj' ▸ hj⟩
          · have hs := ((matches_iff hq hend).mp hmatch).resolve_left fun hqo => hex ⟨q, hqo⟩
            have := hsome.resolve_left hex q hs
            exact .inr (.inr ⟨fun i hi => hex ⟨i, hi⟩, by omega⟩)
    | none =>
      have hno := char_search_forward_none.mp h₂
      have honly : ∀ i, b.Occurs pat i → i = b.end_ - 1 := fun i hi => by
        have := hbefore i hi
        by_contra hne
        exact hno i hi.1 (by omega) hi.2.2
      have hnostray : ∀ i, ¬ b.Stray pat i := fun i hs => hno i hs.1 hs.2.1 hs.2.2.2
      dsimp only [Nearest, SearchesWell, Option.getD_none]
      constructor
      · rintro (⟨-, hlt, -⟩ | ⟨hall, hdo, -⟩ | ⟨hnone', -⟩)
        · omega
        · refine .inr ⟨fun h => ?_, fun i _ => hnostray i, .inl ⟨dot, hdo⟩⟩
          have := hall _ h.2
          omega
        · exact .inr ⟨fun h => hnone' _ h.2, fun i _ => hnostray i, .inr fun i hs => absurd hs (hnostray i)⟩
      · rintro (⟨i, hi, hie, hio⟩ | ⟨hlast, -, -⟩)
        · exact absurd hio.2.2 (hbehind i hi hie)
        · by_cases hex : ∃ i, b.Occurs pat i
          · obtain ⟨i, hio⟩ := hex
            have hi := honly i hio
            subst hi
            have hge : ¬ dot < b.end_ - 1 := fun hlt => hlast ⟨hlt, hio⟩
            have hend := hio.2.1
            have hd : dot = b.end_ - 1 := by
              have := hio.1
              omega
            refine .inr (.inl ⟨fun j hj => ?_, hd ▸ hio, fun j hj => ?_⟩)
            · rw [honly j hj, hd]
            · rw [honly j hj, hd]
          · exact .inr (.inr ⟨fun i hi => hex ⟨i, hi⟩, rfl⟩)

lemma search_target_back (hne : 0 < pat.length) {dot : ℤ} (hdot : dot < max b.end_ 1) :
    b.Nearest pat dot .back (b.search_target pat dot .back) ↔ b.SearchesWell pat dot .back := by
  have hback : dot + Dir.back.inc = dot - 1 := rfl
  rw [search_target, hback]
  cases h₁ : b.char_search false (dot - 1) pat .back false with
  | some q =>
    obtain ⟨hq, hlt, hmatch, hlast⟩ := char_search_back.mp h₁
    have hqo : b.Occurs pat q := ⟨hq, by omega, hmatch⟩
    dsimp only [Nearest, SearchesWell]
    constructor
    · rintro (⟨-, hqd, hmax⟩ | ⟨hall, -, -⟩ | ⟨hno, -⟩)
      · exact .inl ⟨q, hqo, hqd, hmax, .inl (by omega)⟩
      · have := hall q hqo
        omega
      · exact absurd hqo (hno q)
    · rintro (⟨m, hmo, hmd, hmax, hnear | ⟨hover, -, -⟩⟩ | ⟨hall, -⟩)
      · have hle := hmax q hqo (by omega)
        have hmq : m = q := by
          by_contra hne
          exact hlast m (by omega) (by omega) hmo.2.2
        subst hmq
        exact .inl ⟨hmo, hmd, hmax⟩
      · have := hover q hqo
        omega
      · have := hall q hqo
        omega
  | none =>
    have hnone := char_search_back_none.mp h₁
    rw [if_pos rfl]
    cases h₂ : b.char_search false (b.end_ - 1) pat .back false with
    | some q =>
      obtain ⟨hq, hlt, hmatch, hlast⟩ := char_search_back.mp h₂
      have hqo : b.Occurs pat q := ⟨hq, by omega, hmatch⟩
      have hmax : ∀ i, b.Occurs pat i → i + pat.length < b.end_ → i ≤ q := fun i hi hie => by
        by_contra hne
        exact hlast i (by omega) (by omega) hi.2.2
      dsimp only [Nearest, SearchesWell, Option.getD_some]
      constructor
      · rintro (⟨-, hqd, hbelow⟩ | ⟨hall, -, hmax'⟩ | ⟨hno, -⟩)
        · refine .inl ⟨q, hqo, hqd, hbelow, .inr ⟨fun i hi => ?_, by omega, hmax⟩⟩
          by_contra hlt'
          exact hnone i hi.1 (by omega) hi.2.2
        · refine .inr ⟨hall, .inl fun he => ?_⟩
          have := hmax' _ he
          omega
        · exact absurd hqo (hno q)
      · rintro (⟨m, hmo, hmd, hbelow, hnear | ⟨-, hme, hmax'⟩⟩ | ⟨hall, hend | ⟨hend, hsame⟩⟩)
        · exact absurd hmo.2.2 (hnone m hmo.1 (by omega))
        · have hmq : m = q := le_antisymm (hmax m hmo hme) (hmax' q hqo (by omega))
          subst hmq
          exact .inl ⟨hmo, hmd, hbelow⟩
        · refine .inr (.inl ⟨hall, hqo, fun i hi => hmax i hi ?_⟩)
          by_contra hge
          have hie : i = b.end_ - pat.length := by
            have := hi.2.1
            omega
          exact hend (hie ▸ hi)
        · have := hsame q hqo
          omega
    | none =>
      have hno := char_search_back_none.mp h₂
      have honly : ∀ i, b.Occurs pat i → i = b.end_ - pat.length := fun i hi => by
        have := hi.2.1
        by_contra hne
        exact hno i hi.1 (by omega) hi.2.2
      dsimp only [Nearest, SearchesWell, Option.getD_none]
      constructor
      · rintro (⟨-, hlt, -⟩ | ⟨hall, hdo, hmax⟩ | ⟨hnone', -⟩)
        · omega
        · exact .inr ⟨hall, .inr ⟨(honly dot hdo).symm, fun i hi => le_antisymm (hmax i hi) (hall i hi)⟩⟩
        · exact .inr ⟨fun i hi => absurd hi (hnone' i), .inl (hnone' _)⟩
      · rintro (⟨m, hmo, -, -, hnear | ⟨-, hme, -⟩⟩ | ⟨hall, hend | ⟨hend, hsame⟩⟩)
        · have := hmo.1
          exact absurd hmo.2.2 (hno m hmo.1 (by omega))
        · exact absurd hmo.2.2 (hno m hmo.1 (by omega))
        · exact .inr (.inr ⟨fun i hi => hend (honly i hi ▸ hi), rfl⟩)
        · by_cases hdo : b.Occurs pat dot
          · exact .inr (.inl ⟨hall, hdo, fun i hi => (hsame i hi).le⟩)
          · exact .inr (.inr ⟨fun i hi => hdo (hsame i hi ▸ hi), rfl⟩)

/-- The search goes to the nearest occurrence just if it searches well. -/
theorem nearest_search_target (hne : 0 < pat.length) {dot : ℤ} (h0 : 0 ≤ dot)
    (hdot : dot < max b.end_ 1) (dir : Dir) :
    b.Nearest pat dot dir (b.search_target pat dot dir) ↔ b.SearchesWell pat dot dir := by
  cases dir with
  | forward => exact search_target_forward hne h0 hdot
  | back => exact search_target_back hne hdot

end Buffer

/-! ## The commands -/

variable {g : Globals} {pat : List Char} {d : Char}

/-- One search. -/
lemma run_find_pattern (hic : g.ignorecase = false) (hpat : g.last_search_pattern = some (d :: pat))
    (rel : Dir) : ∃ on g', (find_pattern rel).run Edit.exec g = .done on g' ∧
      g'.dot = g.search_target pat g.dot (Ed.search_dir (d :: pat) rel) ∧
      g'.toBuffer = g.toBuffer ∧ g'.cmdcnt = g.cmdcnt := by
  rw [find_pattern, Program.bind_eq, run_look_bind]
  dsimp only
  rw [hpat, hic]
  dsimp only [List.tail_cons]
  rw [Buffer.search_target]
  generalize Ed.search_dir (d :: pat) rel = dir
  cases g.char_search false (g.dot + dir.inc) pat dir false with
  | some q => exact ⟨_, _, rfl, rfl, rfl, rfl⟩
  | none =>
    dsimp only
    cases g.char_search false (if dir = .back then g.end_ - 1 else 0) pat dir false with
    | some q => exact ⟨_, _, rfl, rfl, rfl, rfl⟩
    | none => exact ⟨_, _, rfl, rfl, rfl, rfl⟩

/-- A search without a count. -/
lemma run_again_find_pattern (hcnt : g.cmdcnt ≤ 1) (hic : g.ignorecase = false)
    (hpat : g.last_search_pattern = some (d :: pat)) (rel : Dir) :
    ∃ g', (again (find_pattern rel)).run Edit.exec g = .done () g' ∧
      g'.dot = g.search_target pat g.dot (Ed.search_dir (d :: pat) rel) ∧ g'.toBuffer = g.toBuffer := by
  obtain ⟨on, g₁, hr, hdot, hbuf, hcount⟩ := run_find_pattern hic hpat rel
  have hone : (max g.cmdcnt 1).toNat = 1 := by omega
  rw [again, Program.bind_eq, run_look_bind, hone, repeated, Program.bind_eq, Program.run_bind, hr,
    Outcome.andThen_done]
  cases on with
  | true =>
    have hlast : ¬ 1 < g₁.cmdcnt := by omega
    rw [if_pos rfl, Program.bind_eq, run_look_bind, if_neg hlast]
    exact ⟨_, rfl, hdot, hbuf⟩
  | false => exact ⟨_, rfl, hdot, hbuf⟩

/-- `n`, `N`, `/` and `?` go to the nearest occurrence of the pattern just if the search of their
direction searches well.  The pattern of `/` and `?` is the line that is read behind the prompt, and
that is what is typed, unless the record is full before the line ends. -/
theorem search_goes_nearest (h0 : 0 ≤ g.dot) (hdot : g.dot < max g.end_ 1) (hcnt : g.cmdcnt ≤ 1)
    (hic : g.ignorecase = false) (hne : pat ≠ []) :
    (∀ rel ∈ [Dir.forward, Dir.back], g.last_search_pattern = some (d :: pat) →
      ∃ g', ((if rel = .forward then Move.search_again else Move.search_opposite).exec
          (if rel = .forward then 'n' else 'N')).run Edit.exec g = .done true g' ∧
        g'.toBuffer = g.toBuffer ∧
        (g.Nearest pat g.dot (Ed.search_dir (d :: pat) rel) g'.dot ↔
          g.SearchesWell pat g.dot (Ed.search_dir (d :: pat) rel))) ∧
    (∀ c ∈ ['/', '?'], ∀ e q, g.queue.get_input_line g.erase_char c = some (e :: pat, q) →
      ∃ g', (Move.search.exec c).run Edit.exec g = .done true g' ∧ g'.toBuffer = g.toBuffer ∧
        (g.Nearest pat g.dot (if e = '?' then .back else .forward) g'.dot ↔
          g.SearchesWell pat g.dot (if e = '?' then .back else .forward))) ∧
    (∀ c ∈ ['/', '?'], ∀ r rest, r = '\n' ∨ r = '\r' ∨ r = '\x1b' →
      g.queue.upcoming = pat ++ r :: rest → (∀ k ∈ pat, PlainKey g.erase_char k) →
      pat.length < MAX_INPUT_LEN - 1 →
      (g.queue.get_input_line g.erase_char c).map Prod.fst = some (if g.queue.adding2q = true ∧
        MAX_INPUT_LEN - 1 ≤ g.queue.last_modifying_cmd.length + pat.length then overrun_message
        else c :: pat)) := by
  have hlen := List.length_pos_of_ne_nil hne
  refine ⟨?_, ?_, ?_⟩
  · intro rel _ hpat
    obtain ⟨g', hr, hd, hbuf⟩ := run_again_find_pattern hcnt hic hpat rel
    refine ⟨g', ?_, hbuf, ?_⟩
    · cases rel with
      | forward =>
        rw [if_pos rfl, if_pos rfl, Move.exec, Program.bind_eq, run_look_bind]
        dsimp only
        rw [Program.bind_eq, Program.run_bind, hr]
        rfl
      | back =>
        rw [if_neg (by decide), if_neg (by decide), Move.exec, Program.bind_eq, run_look_bind]
        dsimp only
        rw [Program.bind_eq, Program.run_bind, hr]
        rfl
    · rw [hd]
      exact Buffer.nearest_search_target hlen h0 hdot _
  · intro c hc e q hq
    -- the new pattern gives the direction
    have hdir : Ed.search_dir (e :: pat) .forward = if e = '?' then .back else .forward := rfl
    let g₁ : Globals :=
      { g.line_typed (e :: pat) with queue := q, last_search_pattern := some (e :: pat) }
    obtain ⟨g', hr, hd, hbuf⟩ := run_again_find_pattern (g := g₁) hcnt hic rfl .forward
    refine ⟨g', ?_, hbuf, ?_⟩
    · have hline : Edit.exec (List Char) (.get_input_line c) g =
          .done (e :: pat) { g.line_typed (e :: pat) with queue := q } := by
        rw [Edit.exec, hq]
        rfl
      obtain ⟨p, l, rfl⟩ := List.exists_cons_of_ne_nil hne
      rw [Move.exec, Program.bind_eq, run_look_bind]
      dsimp only
      rw [Vi.search, Program.bind_eq, Program.run_bind, Program.bind_eq, Program.run_bind,
        Program.run_perform, hline, Outcome.andThen_done]
      dsimp only
      rw [Program.bind_eq, Program.run_bind]
      show (((again (find_pattern .forward)).run Edit.exec g₁).andThen _) = _
      rw [hr]
      rfl
    · rw [hd, hdir]
      exact Buffer.nearest_search_target hlen h0 hdot _
  · intro c hc r rest hr hnext hplain hshort
    refine Queue.get_input_line_plain hnext hplain hr hshort ?_
    rintro rfl
    exact absurd hc (by decide)

/-- An editor that tells cases apart, with the cursor on the third of the characters `abab`. -/
def on_third (keys : List Char) : Globals :=
  { opened ['a', 'b', 'a', 'b', '\n'] keys with ignorecase := false, dot := 2 }

theorem search_goes_nearest_typed : ∃ g g' : Globals, g.content = ['a', 'b', 'a', 'b', '\n'] ∧ g.dot = 2 ∧
    (Move.search.exec '/').run Edit.exec g = .done true g' ∧ g.Nearest ['b'] 2 .forward g'.dot := by
  have hcontent : (on_third ['b', '\n']).content = ['a', 'b', 'a', 'b', '\n'] := by decide +kernel
  have hend : (on_third ['b', '\n']).end_ = 5 := by decide +kernel
  have hlast : (on_third ['b', '\n']).mem 4 = '\n' := by decide +kernel
  have hcnt : (on_third ['b', '\n']).cmdcnt = 0 := by decide +kernel
  have hline : ((on_third ['b', '\n']).queue.get_input_line (on_third ['b', '\n']).erase_char '/').map
      Prod.fst = some ['/', 'b'] := by decide +kernel
  obtain ⟨⟨q, l⟩, hq, hl⟩ := Option.map_eq_some_iff.mp hline
  subst hl
  have hdot : (on_third ['b', '\n']).dot < max (on_third ['b', '\n']).end_ 1 := by
    rw [hend]
    decide
  have hsearch := search_goes_nearest (g := on_third ['b', '\n']) (d := '/') (by decide) hdot
    (by rw [hcnt]; decide) rfl (List.cons_ne_nil 'b' [])
  obtain ⟨g', hr, -, hnear⟩ := hsearch.2.1 '/' (by simp) '/' l hq
  have hwell := @Buffer.searchesWell_forward (on_third ['b', '\n']).toBuffer ['b']
    (by decide) (by rw [hend]; exact hlast) (by decide) 2
  exact ⟨_, g', hcontent, rfl, hr, hnear.mpr hwell⟩

/-- From the third character `?b` goes to the fourth one, not back to the second. -/
theorem search_passes_over : ∃ (g g' : Globals) (on : Bool),
    g.content = ['a', 'b', 'a', 'b', '\n'] ∧ g.dot = 2 ∧ g.Nearest ['b'] 2 .back 1 ∧
      (Move.search.exec '?').run Edit.exec g = .done on g' ∧ g'.dot = 3 := by
  have hrun : (((Move.search.exec '?').run Edit.exec (on_third ['b', '\n'])).state.map
      fun g' => g'.dot) = some 3 := by decide +kernel
  have hcontent : (on_third ['b', '\n']).content = ['a', 'b', 'a', 'b', '\n'] := by decide +kernel
  have hend : (on_third ['b', '\n']).end_ = 5 := by decide +kernel
  have hmatch : (on_third ['b', '\n']).Matches ['b'] 1 := by decide +kernel
  obtain ⟨g', hr, hdot⟩ := Option.map_eq_some_iff.mp hrun
  obtain ⟨on, hr⟩ := Outcome.state_eq_some.mp hr
  have hocc : (on_third ['b', '\n']).Occurs ['b'] 1 := ⟨by decide, by rw [hend]; decide, hmatch⟩
  exact ⟨_, g', on, hcontent, rfl, .inl ⟨hocc, by decide, fun i _ hi => by omega⟩, hr, hdot⟩

end EspLinux.Vi
