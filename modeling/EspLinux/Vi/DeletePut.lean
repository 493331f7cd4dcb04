import EspLinux.Vi.LineNumbers
import EspLinux.Vi.Room

/-!
# vi: deleting lines and putting them back

`dd` with a count takes whole lines out of the text and keeps them in a register, from which `P` or
`p` puts them back.  A register is a string, so that it ends at the first NUL; and it is always the
unnamed register that is put.
-/

namespace EspLinux.Vi

open Lib

/-! ## Whole lines -/

/-- A stretch of the text, as part of the list. -/
lemma Buffer.range_eq {b : Buffer} {p q : ℤ} (hp : 0 ≤ p) (hq : q < b.end_) :
    b.range p q = (b.content.drop p.toNat).take (q - p + 1).toNat := by
  have hlen : b.content.length = b.end_.toNat := b.length_content
  refine List.ext_getElem? fun i => ?_
  rw [Buffer.range_def, List.getElem?_map, List.getElem?_take, List.getElem?_drop]
  by_cases hi : i < (q - p + 1).toNat
  · have hat : ((p.toNat + i : ℕ) : ℤ) = p + i := by omega
    rw [List.getElem?_range hi, if_pos hi, Buffer.getElem?_content (by omega), hat]
    rfl
  · rw [if_neg hi, List.getElem?_eq_none (by rw [List.length_range]; omega)]
    rfl

/-- Where a deletion ends up that leaves something. -/
lemma Buffer.text_hole_delete_position {b : Buffer} {p q : ℤ} (hp : 0 ≤ p) (hpq : p ≤ q) (hq : q < b.end_)
    (hleft : 0 < b.end_ - (q - p + 1)) : (b.text_hole_delete p q).1 =
      if b.end_ - (q - p + 1) ≤ p then b.end_ - (q - p + 1) - 1 else p := by
  simp only [text_hole_delete]
  split_ifs <;> dsimp only <;> omega

namespace Buffer.Lined

variable {b : Buffer} {pre mid post : List (List Char)} {l : List Char} {p : ℤ}

/-- The last newline of some lines is found from the first of them. -/
lemma end_line_iterate (h : b.Lined (pre ++ l :: (mid ++ post))) (hp : (unlines '\n' pre).length ≤ p)
    (hp' : p ≤ (unlines '\n' pre).length + l.length) {n : ℕ}
    (hn : n = mid.length ∨ post = [] ∧ mid.length ≤ n) :
    b.end_line (b.next_line^[n] p) = (unlines '\n' (pre ++ l :: mid)).length - 1 := by
  induction mid generalizing pre l p n with
  | nil =>
    have hlen : (((unlines '\n' (pre ++ [l])).length : ℕ) : ℤ) - 1 =
        (unlines '\n' pre).length + l.length := by
      rw [unlines_append, unlines_cons, unlines_nil, List.length_append, List.length_append]
      push_cast
      simp
      ring
    rw [hlen]
    obtain rfl | ⟨rfl, -⟩ := hn
    · exact h.end_line_middle hp hp'
    · -- there is no next line to go to
      have hstay : (unlines '\n' pre).length ≤ b.next_line^[n] p ∧
          b.next_line^[n] p ≤ (unlines '\n' pre).length + l.length := by
        induction n with
        | zero => exact ⟨hp, hp'⟩
        | succ n ih =>
          rw [Function.iterate_succ_apply', h.next_line_middle ih.1 ih.2, if_pos (by rfl)]
          exact ⟨by omega, by omega⟩
      exact h.end_line_middle hstay.1 hstay.2
  | cons m mid ih =>
    obtain ⟨n, rfl⟩ : ∃ n', n = n' + 1 := ⟨n - 1, by
      rw [List.length_cons] at hn
      omega⟩
    have hnext := h.next_line_middle hp hp'
    rw [if_neg (by simp)] at hnext
    have hat : (((unlines '\n' (pre ++ [l])).length : ℕ) : ℤ) =
        (unlines '\n' pre).length + l.length + 1 := by
      rw [unlines_append, unlines_cons, unlines_nil, List.length_append, List.length_append]
      push_cast
      simp
      ring
    have hrest : b.Lined ((pre ++ [l]) ++ m :: (mid ++ post)) := by simpa using h
    have hstep := ih hrest (p := b.next_line p) (by omega) (by omega)
      (n := n) (hn.imp (fun h => by rw [List.length_cons] at h; omega) fun h =>
        ⟨h.1, by have := h.2; rw [List.length_cons] at this; omega⟩)
    rw [Function.iterate_succ_apply, hstep, List.append_assoc, List.singleton_append]

/-- Some lines, as a stretch of the text. -/
lemma range_lines (h : b.Lined (pre ++ mid ++ post)) :
    b.range (unlines '\n' pre).length ((unlines '\n' (pre ++ mid)).length - 1) = unlines '\n' mid := by
  have hend := h.end_eq
  have hsplit : (unlines '\n' (pre ++ mid)).length = (unlines '\n' pre).length + (unlines '\n' mid).length := by
    rw [unlines_append, List.length_append]
  have hsplit' : (unlines '\n' (pre ++ mid ++ post)).length =
      (unlines '\n' (pre ++ mid)).length + (unlines '\n' post).length := by
    rw [unlines_append _ post, List.length_append]
  have hfrom : (((unlines '\n' pre).length : ℕ) : ℤ).toNat = (unlines '\n' pre).length := by omega
  have hlen : ((((unlines '\n' (pre ++ mid)).length : ℕ) : ℤ) - 1 - (unlines '\n' pre).length + 1).toNat =
      (unlines '\n' mid).length := by omega
  rw [Buffer.range_eq (by omega) (by omega), h.content, hfrom, hlen, unlines_append, unlines_append,
    List.append_assoc, List.drop_left' rfl, List.take_left' rfl]

end Buffer.Lined

variable {g : Globals} {pre mid post : List (List Char)} {l : List Char}

/-- Deleting whole lines. -/
lemma lined_deleted_lines (h : g.Lined (pre ++ mid ++ post)) (hmid : mid ≠ []) :
    (g.deleted (unlines '\n' pre).length ((unlines '\n' (pre ++ mid)).length - 1)).Lined (pre ++ post) := by
  have hend := h.end_eq
  have hpos : 0 < (unlines '\n' mid).length := by
    obtain ⟨m, ms, rfl⟩ := List.exists_cons_of_ne_nil hmid
    rw [unlines_cons, List.length_append, List.length_cons]
    omega
  have hsplit : (unlines '\n' (pre ++ mid)).length = (unlines '\n' pre).length + (unlines '\n' mid).length := by
    rw [unlines_append, List.length_append]
  have hsplit' : (unlines '\n' (pre ++ mid ++ post)).length =
      (unlines '\n' (pre ++ mid)).length + (unlines '\n' post).length := by
    rw [unlines_append _ post, List.length_append]
  have hfrom : (((unlines '\n' pre).length : ℕ) : ℤ).toNat = (unlines '\n' pre).length := by omega
  have hto : ((((unlines '\n' (pre ++ mid)).length : ℕ) : ℤ) - 1 + 1).toNat =
      (unlines '\n' (pre ++ mid)).length := by omega
  refine ⟨?_, ?_, ?_⟩
  · have hge := Buffer.le_end_text_hole_delete (b := g.toBuffer) (p := (unlines '\n' pre).length)
      (q := (unlines '\n' (pre ++ mid)).length - 1) (by omega) h.end_nonneg
    exact (le_max_right _ _).trans hge
  · rw [Globals.content_deleted (by omega) (by omega) (by omega), h.content, hfrom, hto,
      unlines_append _ post, List.drop_left' rfl, unlines_append, List.append_assoc, List.take_left' rfl,
      unlines_append]
  · intro m hm
    refine h.plain m ?_
    rw [List.mem_append] at hm
    rw [List.mem_append, List.mem_append]
    tauto

/-- Inserting between lines. -/
lemma content_filled_lines {b : Buffer} {s : List Char} (h : b.Lined (pre ++ post)) :
    (b.filled (unlines '\n' pre).length s).content = unlines '\n' pre ++ s ++ unlines '\n' post := by
  have hend := h.end_eq
  rw [unlines_append, List.length_append] at hend
  have hat : (((unlines '\n' pre).length : ℕ) : ℤ).toNat = (unlines '\n' pre).length := by omega
  rw [Buffer.content_filled (by omega) (by omega), h.content, hat, unlines_append, List.take_left' rfl,
    List.drop_left' rfl]

/-- What is inserted brings its newlines. -/
lemma count_filled {b : Buffer} {p : ℤ} {s : List Char} (hp : 0 ≤ p) (hend : p ≤ b.end_) :
    (b.filled p s).content.count '\n' = b.content.count '\n' + s.count '\n' := by
  have hsplit := congrArg (List.count '\n') (List.take_append_drop p.toNat b.content)
  rw [List.count_append] at hsplit
  rw [Buffer.content_filled hp hend, List.count_append, List.count_append, ← hsplit]
  omega

/-! ## The cursor in a line -/

/-- The text is made of lines, and the cursor is in the line `l`, behind those of `pre` and before
those of `post`. -/
structure Globals.AtLine (g : Globals) (pre : List (List Char)) (l : List Char)
    (post : List (List Char)) : Prop where
  lined : g.Lined (pre ++ l :: post)
  low : (unlines '\n' pre).length ≤ g.dot
  high : g.dot ≤ (unlines '\n' pre).length + l.length

namespace Globals.AtLine

variable {g' : Globals}

lemma nonneg (h : g.AtLine pre l post) : 0 ≤ g.dot := (Int.natCast_nonneg _).trans h.low

lemma dot_lt (h : g.AtLine pre l post) : g.dot < g.end_ := h.high.trans_lt h.lined.middle_lt_end

lemma begin_line (h : g.AtLine pre l post) : g.begin_line g.dot = (unlines '\n' pre).length :=
  h.lined.begin_line_middle h.low h.high

lemma end_line (h : g.AtLine pre l post) : g.end_line g.dot = (unlines '\n' pre).length + l.length :=
  h.lined.end_line_middle h.low h.high

lemma same (h : g.AtLine pre l post) (hb : g'.toBuffer = g.toBuffer) (hdot : g'.dot = g.dot) :
    g'.AtLine pre l post :=
  ⟨by rw [hb]; exact h.lined, by rw [hdot]; exact h.low, by rw [hdot]; exact h.high⟩

/-- Skipping blanks from the beginning of a line does not leave it. -/
lemma skip_blanks (h : g.Lined (pre ++ l :: post)) :
    (unlines '\n' pre).length ≤ g.skip_over_ws (unlines '\n' pre).length ∧
      g.skip_over_ws (unlines '\n' pre).length ≤ (unlines '\n' pre).length + l.length := by
  refine ⟨Buffer.le_skip_ws, ?_⟩
  have hplain : g.Plain (unlines '\n' pre).length (g.skip_over_ws (unlines '\n' pre).length) :=
    Buffer.plain_skip_ws
  by_contra hlt
  exact hplain _ (by omega) (by omega) h.newline_middle

end Globals.AtLine

/-- The end of a command leaves the cursor in its line. -/
lemma run_settle_at (h : g.AtLine pre l post) (c : Char) : ∃ g' : Globals,
    (settle c).run Edit.exec g = .done () g' ∧ g'.AtLine pre l post ∧
      g' = { g with toMarks := g'.toMarks, dot := g'.dot, cmdcnt := g'.cmdcnt } := by
  have hnotend : g.dot ≠ g.end_ := h.dot_lt.ne
  have hbound : Vi.bound_dot.run Edit.exec g = .done () g :=
    (run_edit _).symm.trans (run_bound_dot_inside h.nonneg h.dot_lt)
  rw [settle, Program.bind_eq, run_look_bind]
  dsimp only
  rw [if_pos hnotend, Program.bind_eq, Program.run_bind, hbound, Outcome.andThen_done]
  -- the context and the count
  let g₁ : Globals := { g with toMarks := g.toEd.check_context c }
  let g₂ : Globals := if isdigit c = true then g₁ else { g₁ with cmdcnt := 0 }
  have hcount : g₂ = { g with toMarks := g₂.toMarks, dot := g₂.dot, cmdcnt := g₂.cmdcnt } := by
    by_cases hc : isdigit c = true
    · simp only [g₂, g₁, if_pos hc]
    · simp only [g₂, g₁, if_neg hc]
  have hat : g₂.AtLine pre l post := by
    refine h.same ?_ ?_
    · rw [hcount]
    · by_cases hc : isdigit c = true
      · simp only [g₂, g₁, if_pos hc]
      · simp only [g₂, g₁, if_neg hc]
  have hrun : ((do
      Program.perform (.check_context c)
      if ¬ isdigit c then count fun _ => 0
      off_newline : Cmd Unit)).run Edit.exec g = off_newline.run Edit.exec g₂ := by
    by_cases hc : isdigit c = true
    · simp only [hc, not_true, if_false, g₂, if_true]
      rfl
    · simp only [hc, g₂]
      rfl
  -- off the newline, but not before the beginning of the line
  rw [hrun, off_newline, Program.bind_eq, run_look_bind]
  split_ifs with hoff
  · refine ⟨_, rfl, ⟨hat.lined, ?_, ?_⟩, ?_⟩
    · have hbegin := hat.begin_line
      have hlow := hoff.2.1
      show _ ≤ g₂.dot - 1
      omega
    · have hhigh := hat.high
      show g₂.dot - 1 ≤ _
      omega
    · rw [hcount]
  · exact ⟨g₂, rfl, hat, hcount⟩

lemma run_dc1_at (h : g.AtLine pre l post) (c : Char) : ∃ g' : Globals,
    (dc1 c).run Edit.exec g = .done () g' ∧ g'.AtLine pre l post ∧
      g' = { g with toMarks := g'.toMarks, dot := g'.dot, cmdcnt := g'.cmdcnt } := by
  have hpos := h.lined.middle_lt_end
  rw [dc1, Program.bind_eq, run_look_bind]
  dsimp only
  rw [if_neg (by omega)]
  exact run_settle_at h c

/-! ## Deleting lines -/

lemma Queue.get_one_char_key {q : Queue} {c : Char} {rest : List Char} (hkeys : q.keys = c :: rest)
    (hioq : q.ioq = none) : ∃ q' : Queue, q.get_one_char = some (c, q') ∧ q'.keys = rest ∧ q'.ioq = none := by
  rw [Queue.get_one_char, Queue.readit, hkeys, hioq]
  by_cases hadd : q.adding2q = true
  · rw [if_pos hadd]
    refine ⟨_, rfl, ?_, ?_⟩ <;> (split_ifs <;> rfl)
  · rw [if_neg hadd]
    exact ⟨_, rfl, rfl, rfl⟩

/-- The lines `l :: mid` are as many as the count says, or all that are left. -/
def Globals.Counts (g : Globals) (mid post : List (List Char)) : Prop :=
  (max g.cmdcnt 1 : ℤ) = mid.length + 1 ∨ post = [] ∧ (mid.length : ℤ) + 1 ≤ max g.cmdcnt 1

/-- The range of `dd`. -/
lemma run_find_range_lines (h : g.AtLine pre l (mid ++ post)) (hcount : g.Counts mid post) :
    (find_range 'd').run Edit.exec g = .done (((unlines '\n' pre).length : ℤ),
      ((unlines '\n' (pre ++ l :: mid)).length : ℤ) - 1, true) g := by
  have hsplit : (unlines '\n' (pre ++ l :: mid)).length =
      (unlines '\n' pre).length + (unlines '\n' (l :: mid)).length := by
    rw [unlines_append, List.length_append]
  have hpos : l.length < (unlines '\n' (l :: mid)).length := by
    rw [unlines_cons, List.length_append, List.length_cons]
    omega
  have hlast := h.lined.end_line_iterate (p := (unlines '\n' pre).length) (le_refl _) (by omega)
    (n := (g.cmdcnt - 1).toNat) (hcount.imp (fun h => by omega) fun h => ⟨h.1, by omega⟩)
  have hrange := h.lined
  rw [← List.cons_append, ← List.append_assoc] at hrange
  have hlines := hrange.range_lines
  have hends : find_ends 'd' = (look.bind fun s => pure (s.begin_line s.dot,
      s.end_line (s.next_line^[(s.cmdcnt - 1).toNat] (s.begin_line s.dot)))) := by
    rw [find_ends]
    have hd : strchr "cdy><" 'd' = true := by decide
    simp only [hd, if_true]
    rfl
  have hbegin : g.begin_line g.dot = (unlines '\n' pre).length := h.begin_line
  have hnl : '\n' ∈ unlines '\n' (l :: mid) := by
    rw [unlines_cons]
    exact List.mem_append_right _ List.mem_cons_self
  have hd : strchr "^0bBh\x08\x7f" 'd' = false := by decide
  rw [find_range, Program.bind_eq, run_look_bind, hends]
  show Outcome.done (min (g.begin_line g.dot) _, (if _ then _ else max (g.begin_line g.dot) _),
    decide ('\n' ∈ g.range (min (g.begin_line g.dot) _) _)) g = _
  rw [hbegin, hlast, min_eq_left (by omega), max_eq_right (by omega), hd,
    if_neg (fun hc => Bool.false_ne_true hc.2), hlines, decide_eq_true hnl]

/-- The line the cursor is in when the lines between `pre` and `post` are gone: the first one behind
them, or the last one. -/
def Neighbour (pre post pre' : List (List Char)) (m : List Char) (post' : List (List Char)) : Prop :=
  pre' = pre ∧ post = m :: post' ∨ post = [] ∧ post' = [] ∧ pre = pre' ++ [m]

lemma Neighbour.append {pre' post' : List (List Char)} {m : List Char}
    (h : Neighbour pre post pre' m post') : pre' ++ m :: post' = pre ++ post := by
  obtain ⟨rfl, rfl⟩ | ⟨rfl, rfl, rfl⟩ := h
  · rfl
  · rw [List.append_nil]

lemma exists_neighbour (h : pre ≠ [] ∨ post ≠ []) : ∃ pre' m post', Neighbour pre post pre' m post' := by
  cases post with
  | cons m post' => exact ⟨pre, m, post', .inl ⟨rfl, rfl⟩⟩
  | nil =>
    have hne : pre ≠ [] := h.resolve_right fun h => h rfl
    exact ⟨pre.dropLast, pre.getLast hne, [], .inr ⟨rfl, rfl, (List.dropLast_append_getLast hne).symm⟩⟩

/-- The position a deletion gives is in the neighbouring line. -/
lemma deleted_dot {pre' post' : List (List Char)} {m : List Char} (h : g.Lined (pre ++ mid ++ post))
    (hmid : mid ≠ []) (hn : Neighbour pre post pre' m post') {r : ℤ}
    (hr : r = (g.toBuffer.text_hole_delete (unlines '\n' pre).length
      ((unlines '\n' (pre ++ mid)).length - 1)).1) :
    (unlines '\n' pre').length ≤ r ∧ r ≤ (unlines '\n' pre').length + m.length := by
  have hend := h.end_eq
  have hpos : 0 < (unlines '\n' mid).length := by
    obtain ⟨m, ms, rfl⟩ := List.exists_cons_of_ne_nil hmid
    rw [unlines_cons, List.length_append, List.length_cons]
    omega
  have hsplit : (unlines '\n' (pre ++ mid)).length = (unlines '\n' pre).length + (unlines '\n' mid).length := by
    rw [unlines_append, List.length_append]
  have hsplit' : (unlines '\n' (pre ++ mid ++ post)).length =
      (unlines '\n' (pre ++ mid)).length + (unlines '\n' post).length := by
    rw [unlines_append _ post, List.length_append]
  obtain ⟨rfl, rfl⟩ | ⟨rfl, rfl, rfl⟩ := hn
  · have hm : (unlines '\n' (m :: post')).length = m.length + 1 + (unlines '\n' post').length := by
      rw [unlines_cons, List.length_append, List.length_cons]
      omega
    rw [Buffer.text_hole_delete_position (by omega) (by omega) (by omega) (by omega), if_neg (by omega)] at hr
    omega
  · have hm : (unlines '\n' (pre' ++ [m])).length = (unlines '\n' pre').length + m.length + 1 := by
      rw [unlines_append, unlines_cons, unlines_nil, List.length_append, List.length_append]
      simp
      omega
    have hnil : (unlines '\n' ([] : List (List Char))).length = 0 := rfl
    rw [Buffer.text_hole_delete_position (by omega) (by omega) (by omega) (by omega), if_pos (by omega)] at hr
    omega

/-- What `dd` does once its range is found. -/
lemma run_operator_found {g₁ : Globals} {p e : ℤ} (hchar : get_one_char.run Edit.exec g = .done 'd' g₁)
    (hfind : (find_range 'd').run Edit.exec g₁ = .done (p, e, true) g₁) :
    (operator 'd').run Edit.exec g = ((yank_delete p e true true).bind fun dot =>
      (move fun _ => dot).bind fun _ => to_line_start.bind fun _ =>
        (report 'd').bind fun _ => pure ('d', false)).run Edit.exec g₁ := by
  have hesc : ¬ 'd' = '\x1b' := by decide
  have hobject : strchr "wW" 'd' = false ∧ strchr partial_line 'd' = false ∧
      strchr whole_lines 'd' = true := by decide
  rw [operator, if_neg (by decide), Program.bind_eq, Program.run_bind, hchar, Outcome.andThen_done]
  dsimp only
  rw [Program.bind_eq, Program.run_bind, hfind, Outcome.andThen_done]
  dsimp only
  rw [if_neg hesc, Program.bind_eq, run_look_bind, hobject.1, hobject.2.1, hobject.2.2, if_pos (by simp)]
  rfl

/-- `dd` takes the lines out of the text, up to the first NUL into the register, and goes to the line
next to them. -/
lemma run_operator_lines {pre' post' : List (List Char)} {m : List Char} {rest : List Char}
    (h : g.AtLine pre l (mid ++ post)) (hcount : g.Counts mid post)
    (hn : Neighbour pre post pre' m post') (hkeys : g.queue.keys = 'd' :: rest)
    (hioq : g.queue.ioq = none) : ∃ g' : Globals,
    (operator 'd').run Edit.exec g = .done ('d', false) g' ∧ g'.AtLine pre' m post' ∧
      (∀ i, g'.reg i = if i = g.YDreg then some (cstring (unlines '\n' (l :: mid))) else g.reg i) ∧
      g'.YDreg = 26 ∧ g'.queue.keys = rest ∧ g'.queue.ioq = none ∧ g'.text_size = g.text_size ∧
      g'.toScreen = g.toScreen := by
  obtain ⟨q, hq, hqkeys, hqioq⟩ := Queue.get_one_char_key hkeys hioq
  let p : ℤ := (unlines '\n' pre).length
  let e : ℤ := (unlines '\n' (pre ++ l :: mid)).length - 1
  let g₁ : Globals := { g.noticed g.queue.overrun with queue := q }
  let g₂ : Globals := { g₁ with toView := g.toEd.text_yank p e g.YDreg }
  let r : ℤ := (g.toBuffer.text_hole_delete p e).1
  let g₃ : Globals := { g₂.deleted p e with dot := r }
  have hlines : g.Lined (pre ++ (l :: mid) ++ post) := by simpa using h.lined
  have hat : g₃.AtLine pre' m post' := by
    obtain ⟨hlow, hhigh⟩ := deleted_dot hlines (List.cons_ne_nil _ _) hn (r := r) rfl
    refine ⟨?_, hlow, hhigh⟩
    rw [hn.append]
    exact lined_deleted_lines hlines (List.cons_ne_nil _ _)
  have hrange : g.range p e = unlines '\n' (l :: mid) := hlines.range_lines
  have hpe : p ≤ e := by
    have hlen : (unlines '\n' (pre ++ l :: mid)).length =
        (unlines '\n' pre).length + (l.length + 1 + (unlines '\n' mid).length) := by
      rw [unlines_append, List.length_append, unlines_cons, List.length_append, List.length_cons]
      omega
    show ((unlines '\n' pre).length : ℤ) ≤ (unlines '\n' (pre ++ l :: mid)).length - 1
    omega
  -- the cursor goes to the first character of its line that is not a blank
  let g₄ : Globals := { g₃ with dot := g₃.skip_over_ws (g₃.begin_line g₃.dot) }
  have hat₄ : g₄.AtLine pre' m post' := by
    have hskip := Globals.AtLine.skip_blanks hat.lined
    have hdot : g₄.dot = g₃.skip_over_ws (unlines '\n' pre').length := by
      show g₃.skip_over_ws (g₃.begin_line g₃.dot) = _
      rw [hat.begin_line]
    exact ⟨hat.lined, by rw [hdot]; exact hskip.1, by rw [hdot]; exact hskip.2⟩
  have hfind : (find_range 'd').run Edit.exec g₁ = .done (p, e, true) g₁ :=
    run_find_range_lines (g := g₁) ⟨h.lined, h.low, h.high⟩ hcount
  have hyank : (yank_delete p e true true).run Edit.exec g₁ = .done r (g₂.deleted p e) := by
    rw [yank_delete, Program.bind_eq, run_look_bind]
    simp only [min_eq_left hpe, max_eq_right hpe]
    rfl
  have hreg : g₄.reg g₄.YDreg = some (cstring (unlines '\n' (l :: mid))) := by
    show (if g.YDreg = g.YDreg then some (cstring (g.range (min p e) (max p e))) else _) = _
    rw [if_pos rfl, min_eq_left hpe, max_eq_right hpe, hrange]
  have hchar : get_one_char.run Edit.exec g = .done 'd' g₁ := by
    rw [get_one_char, Program.run_perform, Edit.exec, hq]
    rfl
  have hreport : ∃ msg, (report 'd').run Edit.exec g₄ = .done () { g₄ with
      status_buffer := msg
      YDreg := 26
      queue := { q with adding2q := false } } := by
    rw [report, Program.bind_eq, run_look_bind]
    dsimp only
    rw [hreg]
    exact ⟨_, rfl⟩
  obtain ⟨msg, hreport⟩ := hreport
  let g₅ : Globals := { g₄ with
    status_buffer := msg
    YDreg := 26
    queue := { q with adding2q := false } }
  have hat₅ : g₅.AtLine pre' m post' := hat₄.same rfl rfl
  refine ⟨g₅, ?_, hat₅, fun i => ?_, rfl, hqkeys, hqioq, rfl, rfl⟩
  · rw [run_operator_found hchar hfind, Program.run_bind, hyank, Outcome.andThen_done]
    show ((report 'd').bind fun _ => pure ('d', false)).run Edit.exec g₄ = _
    rw [Program.run_bind, hreport]
    rfl
  · show (if i = g.YDreg then some (cstring (g.range (min p e) (max p e))) else g.reg i) = _
    rw [min_eq_left hpe, max_eq_right hpe, hrange]

/-! ## Putting lines -/

lemma run_string_insert {p : ℤ} {s : List Char} (hfit : Fitting g s.length) : ∃ msg,
    (string_insert p s).run Edit.exec g = .done p { g.insert p s with status_buffer := msg } := by
  have hop : Edit.exec ℤ (.string_insert p s) g = .done p (g.insert p s) := by
    rw [Edit.exec]
    exact if_neg (not_not.mpr (unmoved_insert hfit).block)
  rw [string_insert, Program.bind_eq, Program.run_bind, Program.run_perform, hop]
  exact ⟨_, rfl⟩

lemma run_string_insert_done {p q : ℤ} {s : List Char} {g' : Globals}
    (hr : (string_insert p s).run Edit.exec g = .done q g') :
    q = p ∧ ∃ msg, g' = { g.insert p s with status_buffer := msg } := by
  rw [string_insert, Program.bind_eq, Program.run_bind, Program.run_perform, Edit.exec] at hr
  dsimp only at hr
  split_ifs at hr
  · cases hr
  · cases hr
    exact ⟨rfl, _, rfl⟩

/-- Where `P` and `p` put: before the line of the cursor or behind the last one, if what is put has a
newline. -/
def put_position (s : Ed) (c : Char) (str : List Char) : ℤ :=
  if '\n' ∈ str then
    if c = 'P' then s.begin_line s.dot
    else if s.end_line s.dot = s.end_ - 1 then s.end_
    else s.next_line s.dot
  else if c = 'p' then s.dot_right
  else s.dot

lemma put_eq {s : List Char} (hreg : g.reg g.YDreg = some s) (c : Char) :
    (put c).run Edit.exec g = ((string_insert (put_position g.toEd c s) s).bind fun dot =>
      (move fun _ => dot).bind fun _ => end_cmd_q).run Edit.exec
        { g with dot := put_position g.toEd c s } := by
  rw [put, Program.bind_eq, run_look_bind]
  dsimp only
  rw [hreg]
  dsimp only
  rw [put_position]
  split_ifs <;> rfl

lemma put_position_inside {c : Char} {s : List Char} (h0 : 0 ≤ g.dot) (hdot : g.dot < g.end_) :
    0 ≤ put_position g.toEd c s ∧ put_position g.toEd c s ≤ g.end_ := by
  have hbegin := Buffer.begin_line_nonneg (b := g.toBuffer) h0
  have hle := Buffer.begin_line_le (b := g.toBuffer) (p := g.dot)
  have hnext := Buffer.le_next_line (b := g.toBuffer) (p := g.dot)
  have hlt := Buffer.next_line_lt (b := g.toBuffer) hdot
  rw [put_position, Ed.dot_right]
  split_ifs <;> omega

/-- What comes of a put: nothing, or what is in the register is in the text. -/
lemma put_done {c : Char} {g' : Globals} {u : Unit}
    (hr : (put c).run Edit.exec g = .done u g') :
    g.reg g.YDreg = none ∧ g'.toBuffer = g.toBuffer ∨
      ∃ s, g.reg g.YDreg = some s ∧ g'.content = (g.filled (put_position g.toEd c s) s).content ∧
        g'.end_ = g.end_ + s.length := by
  cases hreg : g.reg g.YDreg with
  | none =>
    rw [put, Program.bind_eq, run_look_bind] at hr
    dsimp only at hr
    rw [hreg] at hr
    cases hr
    exact .inl ⟨rfl, rfl⟩
  | some s =>
    rw [put_eq hreg, Program.run_bind, Outcome.andThen_eq_done] at hr
    obtain ⟨q, g₁, hr₁, hr₂⟩ := hr
    obtain ⟨-, msg, rfl⟩ := run_string_insert_done hr₁
    have hmem := Globals.mem_insert (g := { g with dot := put_position g.toEd c s })
      (p := put_position g.toEd c s) (s := s)
    have hend := Globals.end_insert (g := { g with dot := put_position g.toEd c s })
      (p := put_position g.toEd c s) (s := s)
    cases hr₂
    exact .inr ⟨s, rfl, Buffer.content_congr hmem (hend.trans Buffer.end_filled.symm), hend⟩

/-! ## Turns of the main loop -/

/-- A key is read, the line may be saved for `U`, and a record may begin. -/
lemma run_before_cmd_key {c : Char} {rest : List Char} (hkeys : g.queue.keys = c :: rest)
    (hioq : g.queue.ioq = none) : ∃ g' : Globals, before_cmd.run exec g = .done c g' ∧
      g'.toBuffer = g.toBuffer ∧ g'.dot = g.dot ∧ g'.cmdcnt = g.cmdcnt ∧ g'.YDreg = g.YDreg ∧
      (∀ i, i ≠ Ureg → g'.reg i = g.reg i) ∧ g'.cmd_mode = g.cmd_mode ∧ g'.text_size = g.text_size ∧
      g'.queue.keys = rest ∧ g'.queue.ioq = none := by
  obtain ⟨q, hq, hqkeys, hqioq⟩ := Queue.get_one_char_key hkeys hioq
  obtain ⟨hb, hv, hsize, -, -⟩ := g.refresh_view
  have hmode : g.refresh.cmd_mode = g.cmd_mode := by
    rw [Globals.refresh]
    split <;> rfl
  have hqueue : g.refresh.queue = g.queue := by
    rw [Globals.refresh]
    split <;> rfl
  let g₁ : Globals := { g.refresh with queue := q, status_buffer := [] }
  obtain ⟨g₂, hsave⟩ : ∃ g₂, save_line.run Edit.exec g₁ = .done () g₂ := ⟨_, rfl⟩
  have hsaved : g₂ = { g₁ with toView := g₂.toView } ∧ g₂.dot = g₁.dot ∧ g₂.cmdcnt = g₁.cmdcnt ∧
      g₂.YDreg = g₁.YDreg ∧ ∀ i, i ≠ Ureg → g₂.reg i = g₁.reg i := by
    cases hsave
    refine ⟨rfl, ?_, ?_, ?_, fun i hi => ?_⟩
    all_goals
      dsimp only
      split
    all_goals first | rfl | exact if_neg hi
  obtain ⟨hview, hdot, hcnt, hY, hreg⟩ := hsaved
  let g₃ : Globals := if ¬ g₂.queue.adding2q ∧ g₂.queue.ioq = none ∧ strchr Ed.modifying_cmds c then
    { g₂ with queue := g₂.queue.start_new_cmd_q g₂.cmdcnt c } else g₂
  have hchar : get_one_char.run Edit.exec g.refresh =
      .done c { g.refresh.noticed g.queue.overrun with queue := q } := by
    rw [get_one_char, Program.run_perform, Edit.exec, hqueue, hq]
    rfl
  have hrun : before_cmd.run exec g = .done c g₃ := by
    show ((edit get_one_char).bind _).run exec g.refresh = _
    rw [Program.run_bind, run_edit, hchar, Outcome.andThen_done]
    show ((edit save_line).bind _).run exec g₁ = _
    rw [Program.run_bind, run_edit, hsave]
    rfl
  have h₃ : g₃ = { g₂ with queue := g₃.queue } ∧ g₃.queue.keys = g₂.queue.keys ∧ g₃.queue.ioq = g₂.queue.ioq := by
    simp only [g₃]
    split_ifs
    · exact ⟨rfl, rfl, rfl⟩
    · exact ⟨rfl, rfl, rfl⟩
  obtain ⟨hsame, hkeys₃, hioq₃⟩ := h₃
  refine ⟨g₃, hrun, ?_, ?_, ?_, ?_, fun i hi => ?_, ?_, ?_, ?_, ?_⟩
  · rw [hsame, hview]
    exact hb
  · rw [hsame, hdot]
    exact congrArg View.dot hv
  · rw [hsame, hcnt]
    exact congrArg View.cmdcnt hv
  · rw [hsame, hY]
    exact congrArg View.YDreg hv
  · rw [hsame, hreg i hi]
    exact congrArg (fun v : View => v.reg i) hv
  · rw [hsame, hview]
    exact hmode
  · rw [hsame, hview]
    exact hsize
  · rw [hkeys₃, hview]
    exact hqkeys
  · rw [hioq₃, hview]
    exact hqioq

/-- A turn in command mode executes the command of its key. -/
lemma run_turn_command {c : Char} {g₁ : Globals} (hbefore : before_cmd.run exec g = .done c g₁)
    (hmode : g₁.cmd_mode = .command) : turn.run exec g =
      ((switch c).run exec g₁).andThen fun k g₂ => (k.elim (pure ()) dc1).run Edit.exec g₂ := by
  rw [turn_eq, Program.run_bind, hbefore, Outcome.andThen_done, do_cmd, Program.bind_eq, Program.run_bind]
  show Program.run exec (if cursor_key c ∨ g₁.cmd_mode = .command then _ else _) g₁ = _
  rw [if_pos (.inr hmode), Program.bind_eq, Program.run_bind]
  cases (switch c).run exec g₁ with
  | stopped e => rfl
  | done k g₂ =>
    rw [Outcome.andThen_done, Outcome.andThen_done]
    cases k with
    | some c => exact run_edit _
    | none => rfl

/-- The turn of `dd`: the lines are gone, and the cursor is in the line next to them. -/
lemma run_turn_delete {pre' post' : List (List Char)} {m : List Char} {rest : List Char}
    (h : g.AtLine pre l (mid ++ post)) (hcount : g.Counts mid post)
    (hn : Neighbour pre post pre' m post') (hmode : g.cmd_mode = .command)
    (hkeys : g.queue.keys = 'd' :: 'd' :: rest) (hioq : g.queue.ioq = none) : ∃ g' : Globals,
    turn.run exec g = .done () g' ∧ g'.AtLine pre' m post' ∧
      g'.reg 26 = (if g.YDreg = 26 then some (cstring (unlines '\n' (l :: mid))) else g.reg 26) ∧
      g'.YDreg = 26 ∧ g'.queue.keys = rest ∧ g'.queue.ioq = none ∧ g'.text_size = g.text_size ∧
      g'.cmd_mode = .command := by
  obtain ⟨g₁, hbefore, hb, hdot, hcnt, hY, hreg, hmode₁, hsize, hkeys₁, hioq₁⟩ := run_before_cmd_key hkeys hioq
  have hcount₁ : g₁.Counts mid post := by
    rw [Globals.Counts, hcnt]
    exact hcount
  obtain ⟨g₂, hrun, hat, hreg₂, hY₂, hkeys₂, hioq₂, hsize₂, hscreen⟩ :=
    run_operator_lines (h.same hb hdot) hcount₁ hn hkeys₁ hioq₁
  obtain ⟨g₃, hdc1, hat₃, hsame⟩ := run_dc1_at hat 'd'
  have hswitch : (switch 'd').run exec g₁ = .done (some 'd') g₂ := by
    have hkey : key_of 'd' = .operator := rfl
    rw [switch, hkey]
    dsimp only
    rw [Program.bind_eq, Program.run_bind, run_edit, hrun, Outcome.andThen_done]
    rfl
  refine ⟨g₃, ?_, hat₃, ?_, ?_, ?_, ?_, ?_, ?_⟩
  · rw [run_turn_command hbefore (hmode₁.trans hmode), hswitch, Outcome.andThen_done]
    exact hdc1
  · rw [hsame, hreg₂ 26, hY, hreg 26 (by decide)]
    exact if_congr eq_comm rfl rfl
  · rw [hsame, hY₂]
  · rw [hsame, hkeys₂]
  · rw [hsame, hioq₂]
  · rw [hsame, hsize₂, hsize]
  · rw [hsame]
    exact (congrArg Screen.cmd_mode hscreen).trans (hmode₁.trans hmode)

lemma dc1_done (hpos : 0 < g.end_) (c : Char) : ∃ g' : Globals,
    (dc1 c).run Edit.exec g = .done () g' ∧ g'.toBuffer = g.toBuffer := by
  have hoff : ∀ g : Globals, ∃ g' : Globals, off_newline.run Edit.exec g = .done () g' := by
    intro g
    rw [off_newline, Program.bind_eq, run_look_bind]
    split_ifs <;> exact ⟨_, rfl⟩
  have hlast : ∀ g : Globals, ∃ g' : Globals, ((do
      Program.perform (.check_context c)
      if ¬ isdigit c then count fun _ => 0
      off_newline : Cmd Unit)).run Edit.exec g = .done () g' := by
    intro g
    by_cases hc : isdigit c = true
    · simp only [hc, not_true, if_false]
      exact hoff { g with toMarks := g.toEd.check_context c }
    · simp only [hc]
      exact hoff { g with toMarks := g.toEd.check_context c, cmdcnt := 0 }
  have hdone : ∃ g' : Globals, (dc1 c).run Edit.exec g = .done () g' := by
    rw [dc1, Program.bind_eq, run_look_bind]
    dsimp only
    rw [if_neg hpos.ne', settle, Program.bind_eq, run_look_bind]
    dsimp only
    by_cases hend : g.dot ≠ g.end_
    · obtain ⟨g₁, hr₁, -⟩ := run_bound_dot_done hpos
      rw [if_pos hend, Program.bind_eq, Program.run_bind, (run_edit _).symm.trans hr₁, Outcome.andThen_done]
      exact hlast g₁
    · rw [if_neg hend]
      exact hlast g
  obtain ⟨g', hr⟩ := hdone
  exact ⟨g', hr, rests_dc1 c g g' () hpos hr⟩

/-- Lines are put where they have been taken out. -/
lemma put_position_lines {pre' post' : List (List Char)} {m s : List Char} (h : g.AtLine pre' m post')
    (hn : Neighbour pre post pre' m post') (hs : '\n' ∈ s) :
    put_position g.toEd (if post = [] then 'p' else 'P') s = (unlines '\n' pre).length := by
  have hend := h.lined.end_eq
  have hlast := h.end_line
  rw [put_position, if_pos hs]
  obtain ⟨rfl, rfl⟩ | ⟨rfl, rfl, rfl⟩ := hn
  · rw [if_neg (List.cons_ne_nil _ _), if_pos rfl]
    exact h.begin_line
  · have hall : (unlines '\n' (pre' ++ [m])).length = (unlines '\n' pre').length + m.length + 1 := by
      rw [unlines_append, unlines_cons, unlines_nil, List.length_append, List.length_append]
      simp
      omega
    rw [if_pos rfl, if_neg (by decide), if_pos (by omega), hend]

section

variable {c : Char} {rest : List Char}

/-- The turn of a put that comes to an end. -/
lemma turn_put_done {pre' post' : List (List Char)} {m : List Char} {g' : Globals}
    (h : g.AtLine pre' m post') (hc : c = 'p' ∨ c = 'P') (hmode : g.cmd_mode = .command)
    (hkeys : g.queue.keys = c :: rest) (hioq : g.queue.ioq = none) (hY : g.YDreg = 26)
    (hr : turn.run exec g = .done () g') : g.reg 26 = none ∧ g'.content = g.content ∨
      ∃ s, g.reg 26 = some s ∧ g'.content = (g.filled (put_position g.toEd c s) s).content := by
  obtain ⟨g₁, hbefore, hb, hdot, -, hY₁, hreg, hmode₁, -, -, -⟩ := run_before_cmd_key hkeys hioq
  have hswitch : switch c = (edit (put c)).bind fun _ => pure (some c) := by
    obtain rfl | rfl := hc <;> rfl
  have hpos : 0 < g₁.end_ := by
    rw [hb]
    exact h.nonneg.trans_lt h.dot_lt
  rw [run_turn_command hbefore (hmode₁.trans hmode), hswitch, Program.run_bind, run_edit] at hr
  obtain ⟨k, g₂, hr, hdc1⟩ := Outcome.andThen_eq_done.mp hr
  obtain ⟨u, g₃, hput, hk⟩ := Outcome.andThen_eq_done.mp hr
  cases hk
  have hreg₁ : g₁.reg g₁.YDreg = g.reg 26 := by
    rw [hY₁, hY]
    exact hreg 26 (by decide)
  have hposition : ∀ s, put_position g₁.toEd c s = put_position g.toEd c s := fun s => by
    simp only [put_position, Ed.dot_right, hb, hdot]
  obtain ⟨hnone, hsame⟩ | ⟨s, hsome, hcontent, hend⟩ := put_done hput
  · have hkeep := rests_dc1 c _ _ _ (by rw [hsame]; exact hpos) hdc1
    exact .inl ⟨hreg₁.symm.trans hnone, by rw [hkeep, hsame, hb]⟩
  · have hkeep := rests_dc1 c _ _ _ (by rw [hend]; omega) hdc1
    refine .inr ⟨s, hreg₁.symm.trans hsome, ?_⟩
    rw [hkeep, hcontent, hposition, hb]

/-- The turn of a put for which there is room. -/
lemma run_turn_put {pre' post' : List (List Char)} {m s : List Char} (h : g.AtLine pre' m post')
    (hc : c = 'p' ∨ c = 'P') (hmode : g.cmd_mode = .command) (hkeys : g.queue.keys = c :: rest)
    (hioq : g.queue.ioq = none) (hY : g.YDreg = 26) (hreg : g.reg 26 = some s)
    (hfit : Fitting g s.length) : ∃ g' : Globals, turn.run exec g = .done () g' := by
  obtain ⟨g₁, hbefore, hb, hdot, -, hY₁, hreg₁, hmode₁, hsize, -, -⟩ := run_before_cmd_key hkeys hioq
  have hswitch : switch c = (edit (put c)).bind fun _ => pure (some c) := by
    obtain rfl | rfl := hc <;> rfl
  have hpos : 0 < g₁.end_ := by
    rw [hb]
    exact h.nonneg.trans_lt h.dot_lt
  have hsome : g₁.reg g₁.YDreg = some s := by
    rw [hY₁, hY, hreg₁ 26 (by decide), hreg]
  have hfit₁ : Fitting { g₁ with dot := put_position g₁.toEd c s } s.length := by
    show 0 < _ → g₁.end_ + _ < g₁.text_size
    rw [hb, hsize]
    exact hfit
  obtain ⟨msg, hins⟩ := run_string_insert (p := put_position g₁.toEd c s) hfit₁
  have hput : ∃ g₂ : Globals, (put c).run Edit.exec g₁ = .done () g₂ ∧ 0 < g₂.end_ := by
    rw [put_eq hsome, Program.run_bind, hins, Outcome.andThen_done]
    refine ⟨_, rfl, ?_⟩
    have hend := Globals.end_insert (g := { g₁ with dot := put_position g₁.toEd c s })
      (p := put_position g₁.toEd c s) (s := s)
    exact (hpos.trans_le (by show g₁.end_ ≤ g₁.end_ + _; omega)).trans_eq hend.symm
  obtain ⟨g₂, hput, hpos₂⟩ := hput
  obtain ⟨g₃, hdc1, -⟩ := dc1_done hpos₂ c
  refine ⟨g₃, ?_⟩
  rw [run_turn_command hbefore (hmode₁.trans hmode), hswitch, Program.run_bind, run_edit, hput,
    Outcome.andThen_done]
  exact hdc1

end

/-! ## Deleting and putting -/

/-- What is in the unnamed register when the lines `ls` have been deleted is all of them. -/
def Kept (g : Globals) (ls : List (List Char)) : Prop :=
  if g.YDreg = 26 then NUL ∉ unlines '\n' ls else g.reg 26 = some (unlines '\n' ls)

/-- The lines `l :: mid` from the line of the cursor on are deleted with `dd`, which `pre` and `post`
are left of; putting gives the text back just if the register has kept the lines. -/
theorem delete_put_lines {c : Char} {rest : List Char} (h : g.AtLine pre l (mid ++ post))
    (hcount : g.Counts mid post) (hleft : pre ≠ [] ∨ post ≠ []) (hroom : g.end_ < g.text_size)
    (hmode : g.cmd_mode = .command) (hkeys : g.queue.keys = 'd' :: 'd' :: c :: rest)
    (hioq : g.queue.ioq = none) (hc : c = if post = [] then 'p' else 'P') :
    (∃ g₁ g', turn.run exec g = .done () g₁ ∧ turn.run exec g₁ = .done () g' ∧ g'.content = g.content) ↔
      Kept g (l :: mid) := by
  obtain ⟨pre', m, post', hn⟩ := exists_neighbour hleft
  obtain ⟨g₁, hrun₁, hat, hreg, hY, hkeys₁, hioq₁, hsize, hmode₁⟩ :=
    run_turn_delete h hcount hn hmode hkeys hioq
  have hpP : c = 'p' ∨ c = 'P' := by
    rw [hc]
    split_ifs
    · exact .inl rfl
    · exact .inr rfl
  have hnl : '\n' ∈ unlines '\n' (l :: mid) := by
    rw [unlines_cons]
    exact List.mem_append_right _ List.mem_cons_self
  have hcontent : g.content = unlines '\n' pre ++ unlines '\n' (l :: mid) ++ unlines '\n' post := by
    rw [h.lined.content, ← unlines_append, ← unlines_append]
    simp
  have hcontent₁ : g₁.content = unlines '\n' pre ++ unlines '\n' post := by
    rw [hat.lined.content, hn.append, unlines_append]
  -- the register holds the lines just if they are kept
  have hkept : g₁.reg 26 = some (unlines '\n' (l :: mid)) ↔ Kept g (l :: mid) := by
    rw [hreg, Kept]
    split_ifs
    · rw [Option.some_inj, cstring_eq_iff]
    · exact Iff.rfl
  have hfilled : ∀ s, '\n' ∈ s → (g₁.filled (put_position g₁.toEd c s) s).content =
      unlines '\n' pre ++ s ++ unlines '\n' post := by
    intro s hs
    rw [hc, put_position_lines hat hn hs]
    exact content_filled_lines (by rw [← hn.append]; exact hat.lined)
  have hcount_del : 0 < (unlines '\n' (l :: mid)).count '\n' := List.count_pos_iff.mpr hnl
  have hcounts : g.content.count '\n' = g₁.content.count '\n' + (unlines '\n' (l :: mid)).count '\n' := by
    rw [hcontent, hcontent₁, List.count_append, List.count_append, List.count_append]
    omega
  rw [← hkept]
  constructor
  · rintro ⟨g₁', g', hr₁, hr₂, hsame⟩
    rw [hrun₁] at hr₁
    cases hr₁
    obtain ⟨-, hnone⟩ | ⟨s, hs, hput⟩ := turn_put_done hat hpP hmode₁ hkeys₁ hioq₁ hY hr₂
    · -- nothing was put
      have hlines := congrArg (List.count '\n') (hnone.symm.trans hsame)
      omega
    · have hin := put_position_inside (c := c) (s := s) hat.nonneg hat.dot_lt
      have hlines := count_filled (b := g₁.toBuffer) (s := s) hin.1 hin.2
      rw [← hput, hsame] at hlines
      have hsnl : '\n' ∈ s := List.count_pos_iff.mp (by omega)
      rw [hs, Option.some_inj]
      rw [hfilled s hsnl, hsame, hcontent] at hput
      exact (List.append_cancel_left (List.append_cancel_right hput)).symm
  · intro hs
    have hfit : Fitting g₁ (unlines '\n' (l :: mid)).length := by
      have hlen : g.end_ = g₁.end_ + (unlines '\n' (l :: mid)).length := by
        have hl := congrArg List.length hcontent
        have hl₁ := congrArg List.length hcontent₁
        rw [Buffer.length_content, List.length_append, List.length_append] at hl
        rw [Buffer.length_content, List.length_append] at hl₁
        have := h.lined.end_nonneg
        have := hat.lined.end_nonneg
        omega
      intro _
      rw [hsize, ← hlen]
      exact hroom
    obtain ⟨g', hrun₂⟩ := run_turn_put hat hpP hmode₁ hkeys₁ hioq₁ hY hs hfit
    refine ⟨g₁, g', hrun₁, hrun₂, ?_⟩
    obtain ⟨hnone, -⟩ | ⟨s, hs', hput⟩ := turn_put_done hat hpP hmode₁ hkeys₁ hioq₁ hY hrun₂
    · rw [hs] at hnone
      cases hnone
    · rw [hs] at hs'
      cases hs'
      rw [hput, hfilled _ hnl, hcontent]

theorem delete_put_first_line : ∃ g g₁ g' : Globals, g.content = ['a', '\n', 'b', '\n'] ∧
    g.queue.keys = ['d', 'd', 'P'] ∧ turn.run exec g = .done () g₁ ∧ turn.run exec g₁ = .done () g' ∧
      g'.content = g.content := by
  have hcontent : (opened ['a', '\n', 'b', '\n'] ['d', 'd', 'P']).content = ['a', '\n', 'b', '\n'] := by
    decide +kernel
  have hdot : (opened ['a', '\n', 'b', '\n'] ['d', 'd', 'P']).dot = 0 := by decide +kernel
  have hend : (opened ['a', '\n', 'b', '\n'] ['d', 'd', 'P']).end_ = 4 := by decide +kernel
  have hcnt : (opened ['a', '\n', 'b', '\n'] ['d', 'd', 'P']).cmdcnt = 0 := by decide +kernel
  have hroom : (opened ['a', '\n', 'b', '\n'] ['d', 'd', 'P']).end_ <
      (opened ['a', '\n', 'b', '\n'] ['d', 'd', 'P']).text_size := by decide +kernel
  have hY : (opened ['a', '\n', 'b', '\n'] ['d', 'd', 'P']).YDreg = 26 := by decide +kernel
  have hat : (opened ['a', '\n', 'b', '\n'] ['d', 'd', 'P']).AtLine [] ['a'] ([] ++ [['b']]) :=
    ⟨⟨by rw [hend]; decide, hcontent, by decide⟩, by rw [hdot]; decide, by rw [hdot]; decide⟩
  have hkept : Kept (opened ['a', '\n', 'b', '\n'] ['d', 'd', 'P']) [['a']] := by
    rw [Kept, if_pos hY]
    decide
  have hkeys : (opened ['a', '\n', 'b', '\n'] ['d', 'd', 'P']).queue.keys = ['d', 'd', 'P'] := by
    decide +kernel
  obtain ⟨g₁, g', hrun₁, hrun₂, hsame⟩ := (delete_put_lines hat (.inl (by rw [hcnt]; decide))
    (.inr (List.cons_ne_nil _ _)) hroom (by decide +kernel) hkeys (by decide +kernel) rfl).mpr hkept
  exact ⟨_, g₁, g', hcontent, hkeys, hrun₁, hrun₂, hsame⟩

/-- Of a line with a NUL only what is before it comes back. -/
theorem delete_put_loses : ∃ g g₁ g' : Globals, g.content = ['a', NUL, '\n', 'b', '\n'] ∧
    g.queue.keys = ['d', 'd', 'P'] ∧ g.end_ < g.text_size ∧ turn.run exec g = .done () g₁ ∧
      turn.run exec g₁ = .done () g' ∧ g'.content = ['a', 'b', '\n'] := by
  have hcontent : (opened ['a', NUL, '\n', 'b', '\n'] ['d', 'd', 'P']).content =
      ['a', NUL, '\n', 'b', '\n'] := by decide +kernel
  have hrun : ((turn.bind fun _ => turn).run exec
      (opened ['a', NUL, '\n', 'b', '\n'] ['d', 'd', 'P'])).state.map (fun g => g.content) =
        some ['a', 'b', '\n'] := by decide +kernel
  obtain ⟨g', hr, hcontent'⟩ := Option.map_eq_some_iff.mp hrun
  obtain ⟨u, hr⟩ := Outcome.state_eq_some.mp hr
  obtain ⟨_, g₁, hr₁, hr₂⟩ := (Program.run_bind_eq_done _).mp hr
  exact ⟨_, g₁, g', hcontent, by decide +kernel, by decide +kernel, hr₁, hr₂, hcontent'⟩

end EspLinux.Vi
