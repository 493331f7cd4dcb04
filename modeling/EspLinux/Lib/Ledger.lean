import Mathlib

/-!
# Who has opened what

Components open numbers of a shared table, use them and close them.  What a component does is a list
of uses, in the order in which it does them, and the ledger says which component has opened a number
that has not been closed since.  A use is legal if the component holds the number, and -1, here
`none`, is held by nobody.

A component only has to know what it holds itself (`Use.after`, `Use.Legal`): as long as all do only
what is legal, nobody else changes that (`Use.enter_spec`).
-/

namespace EspLinux.Lib

variable {α ι : Type*}

/-- What a component does with a number. -/
inductive Use (α : Type*)
  /-- A number that is returned for something that has been opened. -/
  | opens (a : α)
  | uses (a : Option α)
  | closes (a : Option α)

namespace Use

/-! ## One component -/

/-- What is held after one use. -/
def held (H : Set α) : Use α → Set α
  | .opens a => insert a H
  | .uses _ => H
  | .closes a => {b ∈ H | a ≠ some b}

/-- What is held after some uses. -/
def after (H : Set α) (l : List (Use α)) : Set α := l.foldl held H

/-- Every use is of a number that is held then. -/
def Legal (H : Set α) : List (Use α) → Prop
  | [] => True
  | .opens a :: l => Legal (held H (.opens a)) l
  | .uses a :: l => (∃ b ∈ H, a = some b) ∧ Legal (held H (.uses a)) l
  | .closes a :: l => (∃ b ∈ H, a = some b) ∧ Legal (held H (.closes a)) l

/-- No number is returned that is held then. -/
def Fresh (H : Set α) : List (Use α) → Prop
  | [] => True
  | .opens a :: l => a ∉ H ∧ Fresh (held H (.opens a)) l
  | .uses a :: l => Fresh (held H (.uses a)) l
  | .closes a :: l => Fresh (held H (.closes a)) l

variable {H : Set α} {l l' : List (Use α)} {a b : α} {o : Option α}

@[simp] lemma after_nil : after H [] = H := rfl

@[simp] lemma after_opens : after H (.opens a :: l) = after (insert a H) l := rfl

@[simp] lemma after_uses : after H (.uses o :: l) = after H l := rfl

@[simp] lemma after_closes : after H (.closes o :: l) = after {b ∈ H | o ≠ some b} l := rfl

lemma after_append : after H (l ++ l') = after (after H l) l' := List.foldl_append

@[simp] lemma legal_nil : Legal H [] := trivial

@[simp] lemma legal_opens : Legal H (.opens a :: l) ↔ Legal (insert a H) l := .rfl

@[simp] lemma legal_uses : Legal H (.uses o :: l) ↔ (∃ b ∈ H, o = some b) ∧ Legal H l := .rfl

@[simp] lemma legal_closes :
    Legal H (.closes o :: l) ↔ (∃ b ∈ H, o = some b) ∧ Legal {b ∈ H | o ≠ some b} l := .rfl

lemma legal_append : Legal H (l ++ l') ↔ Legal H l ∧ Legal (after H l) l' := by
  induction l generalizing H with
  | nil => simp
  | cons u l ih =>
    cases u with
    | opens a => simp [ih]
    | uses o => simp [ih, and_assoc]
    | closes o => simp [ih, and_assoc]

@[simp] lemma fresh_nil : Fresh H [] := trivial

@[simp] lemma fresh_opens : Fresh H (.opens a :: l) ↔ a ∉ H ∧ Fresh (insert a H) l := .rfl

@[simp] lemma fresh_uses : Fresh H (.uses o :: l) ↔ Fresh H l := .rfl

@[simp] lemma fresh_closes : Fresh H (.closes o :: l) ↔ Fresh {b ∈ H | o ≠ some b} l := .rfl

lemma fresh_append : Fresh H (l ++ l') ↔ Fresh H l ∧ Fresh (after H l) l' := by
  induction l generalizing H with
  | nil => simp
  | cons u l ih =>
    cases u with
    | opens a => simp [ih, and_assoc]
    | uses o => simp [ih]
    | closes o => simp [ih]

/-! ## The ledger -/

variable [DecidableEq α] {i j : ι} {owner owner' : α → Option ι} {u : Use α}

/-- An entry of component `i`.  Nothing is returned that is open already. -/
def book (i : ι) (owner : α → Option ι) : Use α → Option (α → Option ι)
  | .opens a => if owner a = none then some (Function.update owner a (some i)) else none
  | .uses _ => some owner
  | .closes none => some owner
  | .closes (some a) => some (Function.update owner a none)

/-- The entries of component `i`, one after another. -/
def enter (i : ι) (owner : α → Option ι) (l : List (Use α)) : Option (α → Option ι) :=
  l.foldlM (book i) owner

/-- What component `i` has opened and nobody has closed. -/
def holdings (owner : α → Option ι) (i : ι) : Set α := {a | owner a = some i}

lemma book_self (h : book i owner u = some owner') :
    holdings owner' i = held (holdings owner i) u ∧ (∀ a, u = .opens a → a ∉ holdings owner i) := by
  cases u with
  | opens a =>
    simp only [book] at h
    split at h
    · rename_i hfree
      cases h
      refine ⟨?_, ?_⟩
      · ext b
        by_cases hb : b = a
        · simp [holdings, held, hb]
        · simp [holdings, held, hb]
      · rintro b ⟨⟩ hb
        cases hfree.symm.trans hb
    · cases h
  | uses o =>
    cases h
    exact ⟨rfl, fun a ha => nomatch ha⟩
  | closes o =>
    cases o with
    | none =>
      cases h
      refine ⟨?_, fun a ha => nomatch ha⟩
      ext b
      simp [holdings, held]
    | some a =>
      cases h
      refine ⟨?_, fun a ha => nomatch ha⟩
      ext b
      by_cases hb : b = a
      · simp [holdings, held, hb]
      · simp [holdings, held, hb, Ne.symm hb]

/-- A use that is legal leaves alone what the others hold. -/
lemma book_other (h : book i owner u = some owner') (hl : Legal (holdings owner i) [u]) (hj : j ≠ i) :
    holdings owner' j = holdings owner j := by
  cases u with
  | opens a =>
    simp only [book] at h
    split at h
    · rename_i hfree
      cases h
      ext b
      by_cases hb : b = a
      · simp [holdings, hb, hfree, hj.symm]
      · simp [holdings, hb]
    · cases h
  | uses o =>
    cases h
    rfl
  | closes o =>
    obtain ⟨⟨a, ha, rfl⟩, -⟩ := hl
    cases h
    ext b
    by_cases hb : b = a
    · have howner : owner a = some i := ha
      simp [holdings, hb, howner, hj.symm]
    · simp [holdings, hb]

/-- The entries of a component change what it holds as it expects, and if they are legal nothing
that others hold. -/
theorem enter_spec (h : enter i owner l = some owner') :
    Fresh (holdings owner i) l ∧ holdings owner' i = after (holdings owner i) l ∧
      (Legal (holdings owner i) l → ∀ j, j ≠ i → holdings owner' j = holdings owner j) := by
  induction l generalizing owner with
  | nil =>
    cases h
    exact ⟨trivial, rfl, fun _ _ _ => rfl⟩
  | cons u l ih =>
    obtain ⟨mid, hbook, hrest⟩ := Option.bind_eq_some_iff.mp h
    obtain ⟨hself, hfresh⟩ := book_self hbook
    obtain ⟨hfreshs, hafter, hother⟩ := ih hrest
    rw [hself] at hfreshs hafter hother
    refine ⟨?_, hafter, fun hl j hj => ?_⟩
    · cases u with
      | opens a => exact ⟨hfresh a rfl, hfreshs⟩
      | uses o => exact hfreshs
      | closes o => exact hfreshs
    · have hsplit : Legal (holdings owner i) [u] ∧ Legal (held (holdings owner i) u) l := by
        exact legal_append.mp (show Legal _ ([u] ++ l) from hl)
      rw [hother hsplit.2 j hj, book_other hbook hsplit.1 hj]

end Use

end EspLinux.Lib
