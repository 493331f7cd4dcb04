import EspLinux.Lib.Run
import EspLinux.Ccd.TextCuts

/-!
# Full input buffers

The lexical analyzer leaves a word or a number in the buffer until the character behind it has
arrived, and white space in front of it, too.  Nothing bounds the length of these.  So a write can
fill the buffer with white space, letters or digits of which nothing is taken off again, and the
writes after it take nothing (`Wedged.stays`).  This is the only way: as long as no write does so,
the buffer has room after each (`text_parser_open`).
-/

namespace EspLinux.Ccd

open EspLinux.Lib

/-! ## The model -/

/-- White space with nothing but letters, or nothing but digits, behind it. -/
def Unfinished (buf : List UInt8) : Prop :=
  (∀ b ∈ buf.dropWhile isBlank, isUpper b = true) ∨ ∀ b ∈ buf.dropWhile isBlank, isDigit b = true

instance (buf : List UInt8) : Decidable (Unfinished buf) :=
  decidable_of_iff ((buf.dropWhile isBlank).all isUpper = true ∨
    (buf.dropWhile isBlank).all isDigit = true) (by simp [Unfinished])

/-- What is in the input buffer when a write has put something into it. -/
def Talk.input (t : Talk) (data : List UInt8) : List UInt8 :=
  (t.in_buf ++ data.take (MAX_IN_BUF_SIZE - t.in_buf.length)).map upper

/-- What happens to a text client: it writes, or other calls, of this client or of others, change
the rest of its record or `last_errorno`. -/
inductive TalkEvent
  | write (g : Geometry) (answer : List Action → ℤ) (data : List UInt8)
  | other (session : Session) (last_errorno : ℤ)

namespace Talk

/-- One event. -/
def step (t : Talk) : TalkEvent → Option Talk
  | .write g answer data => (text_write g answer data t).map Prod.fst
  | .other session last_errorno =>
    some { t with session := session, last_errorno := last_errorno }

/-- The condition on a step: a write does not fill the buffer with one unfinished piece. -/
def Open (t : Talk) : TalkEvent → Prop
  | .write _ _ data => ¬ (MAX_IN_BUF_SIZE ≤ (t.input data).length ∧ Unfinished (t.input data))
  | .other _ _ => True

/-- What holds of the buffer between two calls. -/
structure Rests (t : Talk) : Prop where
  upper : t.in_buf.map upper = t.in_buf
  unread : next_lexeme t.in_buf = none
  le : t.in_buf.length ≤ MAX_IN_BUF_SIZE

/-- The buffer is full, and nothing in it can be taken off. -/
structure Wedged (t : Talk) : Prop extends t.Rests where
  full : MAX_IN_BUF_SIZE ≤ t.in_buf.length

end Talk

/-! ## Unfinished input -/

variable {g : Geometry} {answer : List Action → ℤ} {buf data : List UInt8} {t t' t₀ : Talk}
  {e : TalkEvent} {n : ℕ}

lemma isUpper_ne_isDigit {b : UInt8} (h : isUpper b = true) : isDigit b = false := by
  simp only [isUpper, isDigit, decide_eq_true_eq, decide_eq_false_iff_not] at *
  omega

/-- Nothing is taken off the input if and only if it is unfinished. -/
theorem next_lexeme_eq_none_iff : next_lexeme buf = none ↔ Unfinished buf := by
  have hnil : ∀ {p : UInt8 → Bool} {b : UInt8} {l : List UInt8}, p b = true →
      (l.dropWhile p = [] ↔ ∀ c ∈ b :: l, p c = true) := by
    intro p b l hb
    rw [List.dropWhile_eq_nil_iff, List.forall_mem_cons]
    exact ⟨fun h => ⟨hb, h⟩, And.right⟩
  rw [Unfinished, next_lexeme]
  cases buf.dropWhile isBlank with
  | nil => simp
  | cons b l =>
    dsimp only
    by_cases hu : isUpper b = true
    · have hd : ¬ ∀ c ∈ b :: l, isDigit c = true := fun h =>
        absurd ((isUpper_ne_isDigit hu).symm.trans (h b List.mem_cons_self)) (by decide)
      rw [if_pos hu, ← hnil hu]
      split
      · rename_i hl
        exact ⟨fun _ => Or.inl hl, fun _ => rfl⟩
      · rename_i hl
        exact ⟨nofun, fun h => absurd (h.resolve_right hd) hl⟩
    · have hnu : ¬ ∀ c ∈ b :: l, isUpper c = true := fun h => hu (h b List.mem_cons_self)
      rw [if_neg hu]
      by_cases hd : isDigit b = true
      · rw [if_pos hd, ← hnil hd]
        split
        · rename_i hl
          exact ⟨fun _ => Or.inr hl, fun _ => rfl⟩
        · rename_i hl
          exact ⟨nofun, fun h => absurd (h.resolve_left hnu) hl⟩
      · have hnd : ¬ ∀ c ∈ b :: l, isDigit c = true := fun h => hd (h b List.mem_cons_self)
        rw [if_neg hd]
        exact ⟨nofun, fun h => absurd h (not_or.mpr ⟨hnu, hnd⟩)⟩

/-! ## The steps -/

namespace Talk

/-- What is in the buffer is in upper case already. -/
lemma input_eq (h : t.Rests) :
    t.input data = t.in_buf ++ (data.take (MAX_IN_BUF_SIZE - t.in_buf.length)).map Ccd.upper := by
  rw [input, List.map_append, h.upper]

lemma length_input_le (h : t.Rests) : (t.input data).length ≤ MAX_IN_BUF_SIZE := by
  have hle := h.le
  have htake := List.length_take_le (MAX_IN_BUF_SIZE - t.in_buf.length) data
  rw [input, List.length_map, List.length_append]
  omega

/-- What a write leaves in the buffer is what is unread of it. -/
lemma write_reads (h : t.Rests) (hdata : data ≠ []) :
    ∃ t' ls, text_write g answer data t =
        some (t', min data.length (MAX_IN_BUF_SIZE - t.in_buf.length)) ∧
      Reads (t.input data) ls t'.in_buf := by
  obtain ⟨ls, u, hr⟩ := Reads.total (t.input data)
  have hlen := List.length_take (i := MAX_IN_BUF_SIZE - t.in_buf.length) (l := data)
  have hw := @text_write_spec g answer _ _ _ _ h.upper hdata _ _
    (List.take_append_drop (MAX_IN_BUF_SIZE - t.in_buf.length) data).symm
    (hlen.trans (Nat.min_comm _ _)) (input_eq h ▸ hr)
  rw [hlen, Nat.min_comm] at hw
  exact ⟨_, ls, hw, hr⟩

/-- After a write there is room in the buffer if and only if the write has not filled it with one
unfinished piece. -/
theorem text_write_open_iff (h : t.Rests) (hdata : data ≠ [])
    (hw : text_write g answer data t = some (t', n)) :
    t'.in_buf.length < MAX_IN_BUF_SIZE ↔ t.Open (.write g answer data) := by
  obtain ⟨t'', ls, hw', hr⟩ := @write_reads g answer data t h hdata
  cases hw.symm.trans hw'
  have hle := @length_input_le data t h
  rw [Open, ← next_lexeme_eq_none_iff]
  generalize t'.in_buf = u at hr
  generalize t.input data = buf at hr hle
  cases hr with
  | stop hnone =>
    rw [not_and', Nat.not_le]
    exact ⟨fun hlt _ => hlt, fun hopen => hopen hnone⟩
  | more hsome hrest =>
    have hlt := next_lexeme_length hsome
    have hlen := hrest.length_le
    refine ⟨fun _ hfull => ?_, fun _ => by omega⟩
    rw [hsome] at hfull
    cases hfull.2

lemma step_rests (h : t.Rests) (hs : t.step e = some t') : t'.Rests := by
  cases e with
  | write g answer data =>
    obtain ⟨⟨t₁, n⟩, hw, heq⟩ := Option.map_eq_some_iff.mp hs
    cases heq
    by_cases hdata : data = []
    · rw [text_write, if_pos hdata] at hw
      cases hw
      exact h
    · obtain ⟨t'', ls, hw', hr⟩ := @write_reads g answer data t h hdata
      cases hw.symm.trans hw'
      have hup : (t.input data).map Ccd.upper = t.input data := by
        rw [input, List.map_map]
        exact List.map_congr_left fun b _ => upper_upper b
      have hlen := hr.length_le
      have hle := @length_input_le data t h
      exact ⟨hr.upper hup, hr.unread, (Nat.le_of_add_left_le hlen).trans hle⟩
  | other session last_errorno =>
    cases hs
    exact ⟨h.upper, h.unread, h.le⟩

lemma step_open (h : t.Rests) (hroom : t.in_buf.length < MAX_IN_BUF_SIZE) (hok : t.Open e)
    (hs : t.step e = some t') : t'.in_buf.length < MAX_IN_BUF_SIZE := by
  cases e with
  | write g answer data =>
    obtain ⟨⟨t₁, n⟩, hw, heq⟩ := Option.map_eq_some_iff.mp hs
    cases heq
    by_cases hdata : data = []
    · rw [text_write, if_pos hdata] at hw
      cases hw
      exact hroom
    · exact (text_write_open_iff h hdata hw).mpr hok
  | other session last_errorno =>
    cases hs
    exact hroom

/-- A full buffer stays as it is, whatever is written. -/
theorem Wedged.stays (h : t.Wedged) (hs : t.step e = some t') :
    t'.Wedged ∧ t'.in_buf = t.in_buf := by
  cases e with
  | write g answer data =>
    obtain ⟨⟨t₁, n⟩, hw, heq⟩ := Option.map_eq_some_iff.mp hs
    cases heq
    cases data with
    | nil =>
      rw [text_write, if_pos rfl] at hw
      cases hw
      exact ⟨h, rfl⟩
    | cons c l =>
      obtain ⟨e, hfull⟩ := @text_write_full g answer t c l h.upper h.unread
        (Nat.not_lt.mpr h.full)
      cases hw.symm.trans hfull
      exact ⟨⟨⟨h.upper, h.unread, h.le⟩, h.full⟩, rfl⟩
  | other session last_errorno =>
    cases hs
    exact ⟨⟨⟨h.upper, h.unread, h.le⟩, h.full⟩, rfl⟩

/-! ## Runs -/

lemma rests_of_nil (h : t.in_buf = []) : t.Rests :=
  ⟨by rw [h]; rfl, by rw [h]; rfl, by rw [h]; exact Nat.zero_le _⟩

/-- As long as no write fills the buffer with one unfinished piece, there is room in it after each
call, and the next write takes something. -/
theorem text_parser_open (h₀ : t₀.in_buf = []) (h : Reach step Open t₀ t) :
    t.in_buf.length < MAX_IN_BUF_SIZE ∧ ∀ g answer data, data ≠ [] →
      ∃ t' n, text_write g answer data t = some (t', n) ∧ 0 < n := by
  have hrests : t.Rests :=
    h.induction_on (rests_of_nil h₀) fun _ _ _ h _ hs => step_rests h hs
  have hroom : t.Rests ∧ t.in_buf.length < MAX_IN_BUF_SIZE := by
    refine h.induction_on (P := fun t => t.Rests ∧ t.in_buf.length < MAX_IN_BUF_SIZE)
      ⟨rests_of_nil h₀, ?_⟩ fun _ _ _ h hok hs => ⟨step_rests h.1 hs, step_open h.1 h.2 hok hs⟩
    rw [h₀]
    decide
  refine ⟨hroom.2, fun g answer data hdata => ?_⟩
  obtain ⟨t', ls, hw, -⟩ : ∃ t' ls, text_write g answer data t =
      some (t', min data.length (MAX_IN_BUF_SIZE - t.in_buf.length)) ∧ Reads (t.input data) ls t'.in_buf :=
    write_reads hrests hdata
  refine ⟨t', _, hw, ?_⟩
  have := List.length_pos_iff.mpr hdata
  have := hroom.2
  omega

/-- A query with a newline behind it. -/
theorem text_parser_open_query :
    ∃ t, Reach step Open (.opened .vga) t ∧ t.in_buf = [10] ∧
      t.in_buf.length < MAX_IN_BUF_SIZE ∧ ∀ g answer data, data ≠ [] →
        ∃ t' n, text_write g answer data t = some (t', n) ∧ 0 < n := by
  obtain ⟨t, hreach, hbuf⟩ : ∃ t, Reach step Open (.opened .vga) t ∧ t.in_buf = [10] :=
    ⟨_, Reach.init.step (e := .write .vga (fun _ => 0) (chars "<query/>\n"))
      (fun h => absurd h.1 (by decide)) rfl, rfl⟩
  exact ⟨t, hreach, hbuf, text_parser_open rfl hreach⟩

/-- 1024 letters. -/
def letters : List UInt8 := List.replicate MAX_IN_BUF_SIZE 65

lemma letters_not_open : ¬ (Talk.opened .vga).Open (.write g answer letters) := by
  have hinput : (Talk.opened .vga).input letters = List.replicate MAX_IN_BUF_SIZE 65 := by
    show ([] ++ letters.take (MAX_IN_BUF_SIZE - 0)).map Ccd.upper = _
    rw [List.nil_append, Nat.sub_zero, letters, List.take_replicate, Nat.min_self,
      List.map_replicate]
    rfl
  refine not_not.mpr ⟨?_, Or.inl fun b hb => ?_⟩
  · rw [hinput, List.length_replicate]
  · rw [hinput] at hb
    rw [List.eq_of_mem_replicate ((List.dropWhile_sublist _).mem hb)]
    rfl

/-- When 1024 letters are written at once, the buffer is full. -/
theorem text_parser_wedged :
    ¬ ∀ t₀ t, t₀.in_buf = [] → Reach step (fun _ _ => True) t₀ t →
      t.in_buf.length < MAX_IN_BUF_SIZE := by
  intro h
  have hrests : (Talk.opened .vga).Rests := rests_of_nil rfl
  have hne : letters ≠ [] := by
    refine List.ne_nil_of_length_pos ?_
    rw [letters, List.length_replicate]
    decide
  obtain ⟨t, ls, hw, -⟩ := @write_reads .vga (fun _ => 0) _ _ hrests hne
  have hroom := h _ t rfl (Reach.init.step (e := .write .vga (fun _ => 0) letters) trivial
    (by rw [step, hw]; rfl))
  exact letters_not_open ((text_write_open_iff hrests hne hw).mp hroom)

end Talk

end EspLinux.Ccd
