import EspLinux.Vi.InputLine

/-!
# vi: runs on the buffers of fixed size

A colon command is taken apart behind its addresses.  If these end in the array of the line, which
they do unless a mark address is the last of 127 characters, the word and the arguments fit into
their arrays, and the delimiters of a substitution are in the line.

The editor reads the addresses of a line as a string, and where a mark address leads behind its end,
the string that lies there.  Both ways end at the same byte, so that the command is the same.

With the messages and the lines this gives the condition for each call of a run to stay inside the
arrays, and `fixed_buffers_inside` for the whole run.
-/

namespace EspLinux.Vi

open Lib

/-! ## Colon commands -/

section Suffixes

variable {p : List Char}

lemma one_address_suffix : one_address p <:+ p := by
  unfold one_address
  split
  · exact List.suffix_cons _ _
  · exact (List.drop_suffix _ _).trans (List.suffix_cons _ _)
  · dsimp only
    split
    · exact (List.tail_suffix _).trans ((List.dropWhile_suffix _).trans (List.suffix_cons _ _))
    · exact (List.dropWhile_suffix _).trans (List.suffix_cons _ _)
  · exact List.suffix_cons _ _
  · exact List.dropWhile_suffix _

lemma addresses_suffix : addresses p <:+ p := by
  have hblank : p.dropWhile isblank <:+ p := List.dropWhile_suffix _
  unfold addresses
  split
  · next q hq => exact (List.dropWhile_suffix _).trans ((List.suffix_cons _ _).trans (hq ▸ hblank))
  · have hone : (one_address (p.dropWhile isblank)).dropWhile isblank <:+ p :=
      (List.dropWhile_suffix _).trans (one_address_suffix.trans hblank)
    split
    · next q hq =>
      refine (List.dropWhile_suffix _).trans (one_address_suffix.trans ?_)
      exact (List.dropWhile_suffix _).trans ((List.suffix_cons _ _).trans (hq ▸ hone))
    · exact hone

/-- The command is what lies in memory from its first byte on. -/
lemma orig_buf_eq (memory : List Char) :
    orig_buf memory = memory.drop (memory.length - (orig_buf memory).length) := by
  refine List.suffix_iff_eq_drop.mp (addresses_suffix.trans ?_)
  split
  · exact List.tail_suffix _
  · exact List.suffix_refl _

end Suffixes

section Strings

variable {g g' : Globals} {p bytes : List Char} {c : Char}

/-- What is left of the line is the string at the given bytes of the memory. -/
structure LineAt (g : Globals) (p bytes : List Char) : Prop where
  string : cstring bytes = p
  behind : g.line_memory.drop g.line_end = bytes.drop p.length

lemma cstring_cons (h : c ≠ NUL) : cstring (c :: bytes) = c :: cstring bytes :=
  List.takeWhile_cons_of_pos (decide_eq_true h)

/-- A string that does not end at once begins with the first byte. -/
lemma eq_cons_of_cstring (h : cstring bytes = c :: p) :
    ∃ rest, bytes = c :: rest ∧ cstring rest = p := by
  cases bytes with
  | nil => cases h
  | cons d rest =>
    by_cases hd : d = NUL
    · rw [cstring, List.takeWhile_cons_of_neg (by simp [hd])] at h
      cases h
    · rw [cstring_cons hd] at h
      obtain ⟨rfl, hrest⟩ := List.cons.inj h
      exact ⟨rest, rfl, hrest⟩

/-- Where a string ends there is a NUL, if there is anything. -/
lemma eq_nil_or_nul (h : cstring bytes = []) : bytes = [] ∨ ∃ rest, bytes = NUL :: rest := by
  cases bytes with
  | nil => exact .inl rfl
  | cons c rest =>
    refine .inr ⟨rest, ?_⟩
    by_contra hne
    rw [cstring_cons fun hc => hne (by rw [hc])] at h
    cases h

/-- A character is passed. -/
lemma LineAt.cons (h : LineAt g (c :: p) bytes) : ∃ rest, bytes = c :: rest ∧ LineAt g p rest := by
  obtain ⟨rest, rfl, hrest⟩ := eq_cons_of_cstring h.string
  exact ⟨rest, rfl, hrest, h.behind⟩

lemma LineAt.head_ne (h : LineAt g [] bytes) (hc : c ≠ NUL) : bytes.head? ≠ some c := by
  rcases eq_nil_or_nul h.string with rfl | ⟨rest, rfl⟩
  · simp
  · simpa using hc.symm

lemma LineAt.head_iff (h : LineAt g p bytes) (hc : c ≠ NUL) :
    bytes.head? = some c ↔ p.headD NUL = c := by
  cases p with
  | nil => exact ⟨fun hhead => absurd hhead (h.head_ne hc), fun hnul => absurd hnul.symm hc⟩
  | cons d p =>
    obtain ⟨rest, rfl, -⟩ := h.cons
    exact Option.some_inj

lemma LineAt.eq_cons (h : LineAt g p (c :: bytes)) (hc : c ≠ NUL) : p = c :: cstring bytes := by
  rw [← h.string, cstring_cons hc]

/-- Characters are passed among which there is no NUL. -/
lemma LineAt.dropWhile {f : Char → Bool} (hf : f NUL = false) (h : LineAt g p bytes) :
    LineAt g (p.dropWhile f) (bytes.dropWhile f) := by
  induction p generalizing bytes with
  | nil =>
    have hstay : bytes.dropWhile f = bytes := by
      rcases eq_nil_or_nul h.string with rfl | ⟨rest, rfl⟩
      · rfl
      · exact List.dropWhile_cons_of_neg (by simp [hf])
    rw [hstay]
    exact h
  | cons c p ih =>
    obtain ⟨rest, rfl, hrest⟩ := h.cons
    rw [List.dropWhile_cons, List.dropWhile_cons]
    split
    · exact ih hrest
    · exact h

/-- What is passed up to a slash, and the slash. -/
lemma LineAt.pattern (h : LineAt g p bytes) :
    LineAt g (p.dropWhile (· ≠ '/')).tail
      (let rest := bytes.dropWhile fun c => c ≠ '/' ∧ c ≠ NUL
      if rest.head? = some '/' then rest.tail else rest) := by
  have hpass : p.dropWhile (fun c => c ≠ '/' ∧ c ≠ NUL) = p.dropWhile (· ≠ '/') := by
    have hnul : NUL ∉ p := h.string ▸ nul_notin_cstring
    clear h
    induction p with
    | nil => rfl
    | cons c p ih =>
      obtain ⟨hc, hp⟩ := not_or.mp (List.mem_cons.not.mp hnul)
      rw [List.dropWhile_cons, List.dropWhile_cons, ih hp]
      simp only [Ne.symm hc, not_false_eq_true, and_true, ne_eq]
  have hrest := h.dropWhile (f := fun c => c ≠ '/' ∧ c ≠ NUL) (by decide)
  rw [hpass] at hrest
  cases hp : p.dropWhile (· ≠ '/') with
  | nil =>
    rw [hp] at hrest
    dsimp only
    rw [if_neg (hrest.head_ne (by decide))]
    exact hrest
  | cons c p' =>
    have hc : c = '/' := by
      have hhead := List.head?_dropWhile_not (· ≠ '/') p
      rw [hp] at hhead
      simpa using hhead
    rw [hp] at hrest
    obtain ⟨rest, hbytes, hrest'⟩ := hrest.cons
    dsimp only
    rw [hbytes, hc, if_pos (List.head?_cons)]
    exact hrest'

/-- The number of a line may begin with any other character. -/
lemma one_address_digits (hc : c ≠ '.' ∧ c ≠ '\'' ∧ c ≠ '/' ∧ c ≠ '$') :
    one_address (c :: bytes) = (c :: bytes).dropWhile isdigit := by
  obtain ⟨hdot, hquote, hslash, hdollar⟩ := hc
  unfold one_address
  split
  · next heq => exact absurd (List.cons.inj heq).1 hdot
  · next heq => exact absurd (List.cons.inj heq).1 hquote
  · next heq => exact absurd (List.cons.inj heq).1 hslash
  · next heq => exact absurd (List.cons.inj heq).1 hdollar
  · rfl

/-- There is no address where the string ends. -/
lemma one_address_end (h : cstring bytes = []) : one_address bytes = bytes := by
  rcases eq_nil_or_nul h with rfl | ⟨rest, rfl⟩
  · rfl
  · rfl

/-- Looking up a mark changes nothing. -/
lemma mark_line_done {i : ℕ} {addr : Option ℤ}
    (hr : (sys (.mark_line i)).run exec g = .done addr g') : g' = g := by
  rw [run_sys, Sys.exec] at hr
  split at hr
  · cases hr
    rfl
  · split_ifs at hr
    cases hr
    rfl

/-- Both parsers of one address end at the same place. -/
lemma get_one_address_at {r : ℤ × List Char} (h : LineAt g p bytes)
    (hr : (get_one_address p).run exec g = .done r g') : LineAt g' r.2 (one_address bytes) := by
  rw [get_one_address] at hr
  obtain ⟨s, g₁, hlook, hr⟩ := (Program.run_bind_eq_done _).mp hr
  cases hlook
  split at hr
  · obtain ⟨rest, rfl, hrest⟩ := h.cons
    cases hr
    exact hrest
  · -- the line ends behind the quote, and what is read next lies behind its end
    obtain ⟨rest, rfl, hrest⟩ := h.cons
    have hbehind : g.line_memory.drop g.line_end = rest := hrest.behind
    have hnext : cstring (g.line_memory.drop (g.line_end + 1)) = cstring (rest.drop 1) := by
      rw [← hbehind, List.drop_drop]
    cases hr
    refine ⟨hnext.symm, ?_⟩
    show g.line_memory.drop (g.line_end + 1 + _) = (rest.drop 1).drop _
    rw [← hbehind, List.drop_drop, List.drop_drop, Nat.add_assoc]
  · obtain ⟨named, rfl, hnamed⟩ := h.cons
    obtain ⟨rest, rfl, hrest⟩ := hnamed.cons
    dsimp only at hr
    split at hr
    · obtain ⟨addr, g₂, hmark, hdone⟩ := (Program.run_bind_eq_done _).mp hr
      obtain rfl := mark_line_done hmark
      cases hdone
      exact hrest
    · cases hr
      exact hrest
  · obtain ⟨rest, rfl, hrest⟩ := h.cons
    dsimp only at hr
    split at hr
    · cases hr
      exact hrest.pattern
    · cases hr
      exact hrest.pattern
  · obtain ⟨rest, rfl, hrest⟩ := h.cons
    cases hr
    exact hrest
  · rename_i c tail hdot hquote hmark hslash hdollar _
    have hne : c ≠ '\'' := by
      intro heq
      cases tail with
      | nil => exact hquote heq rfl
      | cons d tail => exact hmark d tail heq rfl
    obtain ⟨rest, rfl, -⟩ := h.cons
    have hdigits := h.dropWhile (f := isdigit) (by decide)
    rw [one_address_digits ⟨hdot, hne, hslash, hdollar⟩]
    split at hr
    · cases hr
      exact hdigits
    · next hdigit =>
      cases hr
      rwa [List.dropWhile_cons_of_neg hdigit] at hdigits
  · cases hr
    have hdigits := h.dropWhile (f := isdigit) (by decide)
    rwa [one_address_end h.string]

/-- Both parsers of the addresses end at the same place: the command that is executed is the one
that lies behind the addresses in memory, even if a mark address has passed the end of the line. -/
theorem get_address_at {r : ℤ × ℤ × List Char} (h : LineAt g p bytes)
    (hr : (get_address p).run exec g = .done r g') : LineAt g' r.2.2 (addresses bytes) := by
  have hblank : isblank NUL = false := by decide
  rw [get_address] at hr
  obtain ⟨s, g₁, hlook, hr⟩ := (Program.run_bind_eq_done _).mp hr
  cases hlook
  have hat := h.dropWhile hblank
  split at hr
  · next hall =>
    rw [hall] at hat
    obtain ⟨rest, hbytes, hrest⟩ := hat.cons
    cases hr
    rw [addresses, hbytes]
    exact hrest.dropWhile hblank
  · next hall =>
    obtain ⟨⟨b, p₁⟩, g₁, hone, hdone⟩ := (Program.run_bind_eq_done _).mp hr
    have hfirst := (get_one_address_at hat hone).dropWhile hblank
    dsimp only at hfirst hdone
    rw [addresses]
    split
    · next rest hbytes =>
      rw [hbytes] at hat
      exact absurd (hat.eq_cons (by decide)) (hall _)
    · split at hdone
      · next hcomma =>
        rw [hcomma] at hfirst
        obtain ⟨rest, hbytes, hrest⟩ := hfirst.cons
        obtain ⟨⟨e, p₂⟩, g₂, htwo, hdone⟩ := (Program.run_bind_eq_done _).mp hdone
        cases hdone
        rw [hbytes]
        exact (get_one_address_at (hrest.dropWhile hblank) htwo).dropWhile hblank
      · next hcomma =>
        cases hdone
        split
        · next rest hbytes =>
          rw [hbytes] at hfirst
          exact absurd (hfirst.eq_cons (by decide)) (hcomma _)
        · exact hfirst

/-- A line that is typed lies at the beginning of its memory. -/
lemma line_typed_at {line : List Char} (hline : NUL ∉ line) :
    LineAt (g.line_typed line) line (g.line_typed line).line_memory := by
  refine ⟨?_, rfl⟩
  have hholds : Holds (g.line_typed line).line_memory line := List.prefix_append _ _
  rw [hholds.cstring_eq, cstring_eq_iff.mpr hline]

/-- The command that is executed is the one that the functions on the arrays find. -/
theorem get_address_typed {line : List Char} {r : ℤ × ℤ × List Char} (hline : NUL ∉ line)
    (hr : (get_address (if line.headD NUL = ':' then line.tail else line)).run exec
      (g.line_typed line) = .done r g') :
    r.2.2 = cstring (orig_buf (g.line_typed line).line_memory) := by
  have hat := line_typed_at (g := g) hline
  have hcolon := hat.head_iff (c := ':') (by decide)
  by_cases h : line.headD NUL = ':'
  · rw [if_pos h] at hr
    rw [orig_buf, if_pos (hcolon.mpr h)]
    refine (get_address_at ?_ hr).string.symm
    cases line with
    | nil => cases h
    | cons c line =>
      obtain ⟨rest, hmemory, hrest⟩ := hat.cons
      rw [hmemory]
      exact hrest
  · rw [if_neg h] at hr
    rw [orig_buf, if_neg (mt hcolon.mp h)]
    exact (get_address_at hat hr).string.symm

end Strings

/-- What is between the delimiters of `:s` is cut out of the line. -/
def Split (memory : List Char) (p : ℕ) (has_pattern : Bool) : Prop :=
  ∃ R, Fix.strchr (memory.drop (p + 2)) (memory.getD (p + 1) NUL) = some R ∧
    ¬ (R = 0 ∧ ¬ has_pattern)

/-- If the command begins behind the array, its word and its arguments fit nevertheless, and it does
not have the delimiters of `:s`. -/
def RoomBehind (buf behind : List Char) (has_pattern : Bool) : Prop :=
  let memory := buf ++ behind
  let p := memory.length - (orig_buf memory).length
  let command := cstring (orig_buf memory)
  let l := Line.of (-1) (-1) command
  cstring memory ≠ [] → MAX_INPUT_LEN ≤ p →
    (command.takeWhile fun c => ¬ isspace c).length < MAX_INPUT_LEN ∧
      l.args.length < MAX_INPUT_LEN ∧
      (ColonCmd.of l.cmd = .substitute → ¬ Split memory p has_pattern)

-- a mark address without its letter, at the end of the longest line
example : ¬ RoomBehind (':' :: List.replicate 125 ' ' ++ ['\'', NUL]) (List.replicate 128 'x')
    false :=
  fun h => absurd (h (by decide +kernel) (by decide +kernel)).1 (by decide +kernel)

namespace Fix

variable {s : Fixed} {behind : List Char} {has_pattern : Bool} {E : Unit → Prop}

lemma strchr_lt {m : List Char} {c : Char} {i : ℕ} (hc : c ≠ NUL) (h : strchr m c = some i) :
    i < (cstring m).length := by
  by_cases hmem : c ∈ cstring m
  · rw [strchr, if_pos hmem] at h
    cases h
    exact List.idxOf_lt_length_iff.mpr hmem
  · rw [strchr, if_neg hmem, if_neg hc] at h
    cases h

/-- The word fits into the array of the command, and its arguments into theirs. -/
def CommandFits (command : List Char) : Prop :=
  (command.takeWhile fun c => ¬ isspace c).length < MAX_INPUT_LEN ∧
    (Line.of (-1) (-1) command).args.length < MAX_INPUT_LEN

lemma length_cmd_lt {command : List Char} (h : (Line.of (-1) (-1) command).useforce = true) :
    (Line.of (-1) (-1) command).cmd.length <
      (command.takeWhile fun c => ¬ isspace c).length := by
  rw [Line.of, decide_eq_true_eq] at h
  simp only [Line.of, h, decide_true, if_true]
  have hpos := List.length_pos_iff.mpr (List.getLast?_isSome.mp (by rw [h]; rfl))
  rw [List.length_dropLast]
  omega

lemma safe_copy_command {command : List Char} (h : s.Good) (hfits : CommandFits command) :
    Safe (fun _ => Fixed.Good) E (copy_command command) s := by
  obtain ⟨hword, hargs⟩ := hfits
  simp only [copy_command, Program.bind_eq, safe_bind, safe_strcpy]
  have hcmd : (s.store .cmd 0 ((command.takeWhile fun c => ¬ isspace c) ++ [NUL])).Good :=
    h.store (by decide) (by decide)
  have hboth : ((s.store .cmd 0 ((command.takeWhile fun c => ¬ isspace c) ++ [NUL])).store .args 0
      ((Line.of (-1) (-1) command).args ++ [NUL])).Good := hcmd.store (by decide) (by decide)
  refine ⟨by rw [zero_add]; exact hword, by rw [zero_add]; exact hargs, ?_⟩
  split
  · next hforce =>
    exact safe_store.mpr ⟨(Nat.succ_le_of_lt (length_cmd_lt hforce)).trans hword.le,
      hboth.store (by decide) (by decide)⟩
  · exact safe_ret.mpr hboth

lemma fits_of_inside_copy {command : List Char} (h : Inside (copy_command command) s) :
    CommandFits command := by
  rw [Inside, Program.along_iff_safe] at h
  simp only [copy_command, Program.bind_eq, safe_bind, safe_strcpy, zero_add] at h
  exact ⟨h.1, h.2.1⟩

/-- One more end in the line. -/
lemma good_end {i : ℕ} (h : s.Good) (hi : i < MAX_INPUT_LEN) :
    (s.store .get_input_line__buf i [NUL]).Good := by
  refine ⟨⟨fun array => by rw [Fixed.length_store, h.length], ?_, h.lmc_len, h.adding2q⟩, ?_⟩
  · have hsize : (s.mem .get_input_line__buf).length = MAX_INPUT_LEN := h.length _
    rw [Fixed.store_mem, getElem?_overwrite (hi.trans_eq hsize.symm), h.line]
    exact ite_self _
  · rw [Fixed.store_mem_ne (by decide)]
    exact h.status

/-- The delimiters are in the array, or there are none. -/
lemma safe_split_line {memory : List Char} {p : ℕ} (h : s.Good)
    (hin : Split memory p has_pattern →
      memory[MAX_INPUT_LEN - 1]? = some NUL ∧ p + 2 < MAX_INPUT_LEN ∧
        memory.getD (p + 1) NUL ≠ NUL) :
    Safe (fun _ => Fixed.Good) E (split_line memory p has_pattern) s := by
  have hMAX : MAX_INPUT_LEN = 128 := rfl
  have hstr : ∀ k ≤ MAX_INPUT_LEN - 1, memory[MAX_INPUT_LEN - 1]? = some NUL →
      (cstring (memory.drop k)).length ≤ MAX_INPUT_LEN - 1 - k := by
    intro k hk hend
    refine length_cstring_le ?_
    rw [List.getElem?_drop, Nat.add_sub_cancel' hk]
    exact hend
  rw [split_line]
  cases hR : strchr (memory.drop (p + 2)) (memory.getD (p + 1) NUL) with
  | none => exact safe_ret.mpr h
  | some R =>
    dsimp only
    split
    · exact safe_ret.mpr h
    next hdelim =>
    obtain ⟨hend, hp, hc⟩ := hin ⟨R, hR, hdelim⟩
    have hRlt := (strchr_lt hc hR).trans_le (hstr (p + 2) (by omega) hend)
    have hfirst := @good_end s (p + 2 + R) h (by omega)
    simp only [Program.bind_eq, safe_bind, safe_store]
    refine ⟨(by omega : p + 2 + R + 1 ≤ MAX_INPUT_LEN), ?_⟩
    cases hbuf1 : strchr (memory.drop (p + 2 + R + 1)) (memory.getD (p + 1) NUL) with
    | none => exact safe_ret.mpr hfirst
    | some buf1 =>
      have hlt := (strchr_lt hc hbuf1).trans_le (hstr (p + 2 + R + 1) (by omega) hend)
      exact safe_store.mpr ⟨(by omega : p + 2 + R + 1 + buf1 + 1 ≤ MAX_INPUT_LEN),
        good_end hfirst (by omega)⟩

/-- Behind the array nothing can be cut out of the line. -/
lemma not_split_of_inside {memory : List Char} {p : ℕ} (hp : MAX_INPUT_LEN ≤ p)
    (h : Inside (split_line memory p has_pattern) s) : ¬ Split memory p has_pattern := by
  rintro ⟨R, hR, hdelim⟩
  rw [Inside, Program.along_iff_safe, split_line] at h
  simp only [hR, if_neg hdelim, Program.bind_eq, safe_bind, safe_store] at h
  have hin : p + 2 + R + 1 ≤ MAX_INPUT_LEN := h.1
  omega

/-- The branch is not the first one. -/
lemma else_of_ite {P : Prop} [Decidable P] {x y z : ColonCmd} (h : (if P then x else y) = z)
    (hx : x ≠ z) : ¬ P ∧ y = z := by
  split at h
  · exact absurd h hx
  · next hP => exact ⟨hP, h⟩

/-- What the word of a substitution is not: empty, or a prefix of `set`. -/
lemma not_set_of_substitute {cmd : List Char} (h : ColonCmd.of cmd = .substitute) :
    cmd ≠ [] ∧ ¬ abbreviates cmd "set" = true ∧ strncasecmp cmd ['s'] 1 = true := by
  obtain ⟨hnil, h⟩ := else_of_ite h (by decide)
  obtain ⟨-, h⟩ := else_of_ite h (by decide)
  obtain ⟨-, h⟩ := else_of_ite h (by decide)
  obtain ⟨-, h⟩ := else_of_ite h (by decide)
  obtain ⟨-, h⟩ := else_of_ite h (by decide)
  obtain ⟨-, h⟩ := else_of_ite h (by decide)
  obtain ⟨-, h⟩ := else_of_ite h (by decide)
  obtain ⟨-, h⟩ := else_of_ite h (by decide)
  obtain ⟨-, h⟩ := else_of_ite h (by decide)
  obtain ⟨-, h⟩ := else_of_ite h (by decide)
  obtain ⟨-, h⟩ := else_of_ite h (by decide)
  obtain ⟨hset, h⟩ := else_of_ite h (by decide)
  refine ⟨hnil, hset, ?_⟩
  by_contra hs
  rw [if_neg hs] at h
  obtain ⟨-, h⟩ := else_of_ite h (by decide)
  obtain ⟨-, h⟩ := else_of_ite h (by decide)
  obtain ⟨-, h⟩ := else_of_ite h (by decide)
  cases h

/-- `:s` is not a name with one letter, which would be that of `:set`. -/
lemma two_le_length_of_substitute {cmd : List Char} (h : ColonCmd.of cmd = .substitute) :
    2 ≤ cmd.length := by
  obtain ⟨hnil, hset, hs⟩ := not_set_of_substitute h
  rcases cmd with _ | ⟨c, _ | ⟨d, cmd⟩⟩
  · exact absurd rfl hnil
  · exact absurd hs hset
  · exact Nat.le_add_left 2 _

lemma length_cmd_le (command : List Char) :
    (Line.of (-1) (-1) command).cmd.length ≤ command.length := by
  have hword := (List.takeWhile_prefix (l := command) fun c => ¬ isspace c).length_le
  rw [Line.of]
  dsimp only
  split
  · rw [List.length_dropLast]
    omega
  · exact hword

/-- A command that begins in the array fits, and so do its delimiters. -/
lemma command_in_array {memory : List Char} {p : ℕ} (hp : p < MAX_INPUT_LEN)
    (hend : memory[MAX_INPUT_LEN - 1]? = some NUL) :
    CommandFits (cstring (memory.drop p)) ∧
      (ColonCmd.of (Line.of (-1) (-1) (cstring (memory.drop p))).cmd = .substitute →
        p + 2 < MAX_INPUT_LEN ∧ memory.getD (p + 1) NUL ≠ NUL) := by
  have hMAX : MAX_INPUT_LEN = 128 := rfl
  have hlen : (cstring (memory.drop p)).length ≤ MAX_INPUT_LEN - 1 - p := by
    refine length_cstring_le ?_
    rw [List.getElem?_drop, Nat.add_sub_cancel' (by omega)]
    exact hend
  have hpre : cstring (memory.drop p) <+: memory.drop p := List.takeWhile_prefix _
  have hnul : NUL ∉ cstring (memory.drop p) := nul_notin_cstring
  generalize cstring (memory.drop p) = command at *
  refine ⟨⟨?_, ?_⟩, fun hsub => ?_⟩
  · have := (List.takeWhile_prefix (l := command) fun c => ¬ isspace c).length_le
    omega
  · have hword := (List.dropWhile_suffix (l := command) fun c => ¬ isspace c).length_le
    have hargs := (List.dropWhile_suffix (l := command.dropWhile fun c => ¬ isspace c)
      isblank).length_le
    exact (hargs.trans hword).trans_lt (by omega)
  · have htwo := (two_le_length_of_substitute hsub).trans (length_cmd_le command)
    refine ⟨by omega, ?_⟩
    obtain ⟨rest, hrest⟩ := hpre
    have hat : memory[p + 1]? = command[1]? := by
      rw [← List.getElem?_drop, ← hrest, List.getElem?_append_left (by omega)]
    rw [List.getD_eq_getElem?_getD, hat, List.getElem?_eq_getElem (by omega), Option.getD_some]
    exact fun he => hnul (he ▸ List.getElem_mem _)

/-- The command begins in the array, or what lies behind the array leaves the room. -/
lemma safe_colon (h : s.Good)
    (hroom : RoomBehind (s.mem .get_input_line__buf) behind has_pattern) :
    Safe (fun _ => Fixed.Good) E (colon behind has_pattern) s := by
  simp only [colon, Program.bind_eq, safe_bind, safe_load]
  generalize hmemory : s.mem .get_input_line__buf ++ behind = memory
  simp only [RoomBehind, hmemory] at hroom
  split
  · exact safe_ret.mpr h
  next hline =>
  have hroom := hroom hline
  have hbuf := orig_buf_eq memory
  generalize hp : memory.length - (orig_buf memory).length = p at hroom hbuf ⊢
  have hend : memory[MAX_INPUT_LEN - 1]? = some NUL := by
    have hsize : (s.mem .get_input_line__buf).length = MAX_INPUT_LEN := h.length _
    rw [← hmemory, List.getElem?_append_left (by rw [hsize]; decide)]
    exact h.line
  have hfits : CommandFits (cstring (orig_buf memory)) ∧
      (ColonCmd.of (Line.of (-1) (-1) (cstring (orig_buf memory))).cmd = .substitute →
        Split memory p has_pattern → p + 2 < MAX_INPUT_LEN ∧ memory.getD (p + 1) NUL ≠ NUL) := by
    rcases lt_or_ge p MAX_INPUT_LEN with hlt | hge
    · rw [hbuf]
      obtain ⟨hfits, hsub⟩ := command_in_array hlt hend
      exact ⟨hfits, fun hs _ => hsub hs⟩
    · obtain ⟨hword, hargs, hsplit⟩ := hroom hge
      exact ⟨⟨hword, hargs⟩, fun hs hcut => absurd hcut (hsplit hs)⟩
  rw [safe_bind]
  refine (safe_copy_command h hfits.1).mono fun _ s' hs' => ?_
  split
  · next hsub => exact safe_split_line hs' fun hcut => ⟨hend, hfits.2 hsub hcut⟩
  · exact safe_ret.mpr hs'

lemma room_of_inside_colon (h : s.Good) (hin : Inside (colon behind has_pattern) s) :
    RoomBehind (s.mem .get_input_line__buf) behind has_pattern := by
  rw [Inside, Program.along_iff_safe] at hin
  simp only [colon, Program.bind_eq, safe_bind, safe_load] at hin
  rw [RoomBehind]
  intro hline hp
  rw [if_neg hline, safe_bind] at hin
  have hfits := fits_of_inside_copy hin.1
  refine ⟨hfits.1, hfits.2, fun hsub => ?_⟩
  have hcopy := (safe_copy_command (E := fun _ => False) h hfits).2
  have hrest := hin.2
  rw [if_pos hsub] at hrest
  -- the copy does not wait for anything
  cases hrun : (copy_command (cstring (orig_buf (s.mem .get_input_line__buf ++ behind)))).run
      Act.exec s with
  | done u s' =>
    rw [hrun] at hrest
    exact not_split_of_inside hp hrest.1
  | stopped e =>
    rw [hrun] at hcopy
    exact hcopy.elim

end Fix

/-! ## Runs -/

/-- The condition under which a call stays inside the arrays: no line is typed that fills the buffer
while nothing is recorded, a colon command that begins behind the array of its line fits
nevertheless, and a message is short enough for its buffer, with the names in it. -/
def Call.Roomy : Call → Fixed → Prop
  | get_input_line erase_char _, s =>
    s.recorder.adding2q = false → ¬ Fills erase_char [] s.queue.to_come
  | colon behind has_pattern, s => RoomBehind (s.mem .get_input_line__buf) behind has_pattern
  | message m, _ => m.bare.length + m.names.length < STATUS_BUFFER_LEN
  | _, _ => True

/-- Names of 43 characters fit into every message. -/
theorem Call.roomy_message {m : Msg} {s : Fixed} (h : m.names.length ≤ 43) :
    (message m).Roomy s := by
  have hbare := m.length_bare_le
  have hlen : STATUS_BUFFER_LEN = 200 := rfl
  show _ < _
  omega

namespace Fix

variable {s : Fixed} {E : Unit → Prop}

lemma safe_format_edit_status {status : List Char} {columns : ℕ} (h : s.Sound) :
    Safe (fun _ s' => s'.Good) E (format_edit_status status columns) s := by
  rw [format_edit_status]
  refine (safe_status_line h ?_).mono fun _ _ hs' => hs'.good
  rw [List.length_take]
  have : STATUS_BUFFER_LEN = 200 := rfl
  split <;> omega

lemma safe_copy_changed (h : s.Good) : Safe (fun _ => Fixed.Good) E copy_changed s := by
  have hlen : (cstring (s.mem .status_buffer)).length < STATUS_BUFFER_LEN :=
    (length_cstring_lt h.status).trans_eq (h.length _)
  simp only [copy_changed, Program.bind_eq, safe_bind, safe_load]
  rw [scompare_eq]
  split
  · next changed hchanged =>
    split at hchanged
    · cases hchanged
    · cases hchanged
      refine safe_strcpy.mpr ⟨?_, h.store (by decide) (by decide)⟩
      rw [List.length_drop]
      show _ < STATUS_BUFFER_LEN
      omega
  · exact safe_ret.mpr h

lemma safe_show_status_line {status : List Char} {columns : ℕ} (h : s.Good) :
    Safe (fun _ => Fixed.Good) E (show_status_line status columns) s := by
  simp only [show_status_line, Program.bind_eq, safe_bind, safe_load]
  split
  · rw [safe_bind]
    exact (safe_format_edit_status h.toSound).mono fun _ _ hs' => safe_copy_changed hs'
  · exact safe_copy_changed h

lemma safe_get_one_char (h : s.Good) :
    Safe (fun _ => Fixed.Good) (fun _ => True) get_one_char s := by
  cases hadding : s.recorder.adding2q with
  | false =>
    rw [safe_get_one_char_idle hadding]
    split
    · trivial
    · exact ⟨h.toSound.took, h.status⟩
  | true =>
    refine (safe_get_one_char_recording h.toSound hadding).mono fun _ s' hs' => ⟨hs'.toSound, ?_⟩
    rcases hs'.full with ⟨-, -, hsame⟩ | ⟨-, -, hmsg⟩
    · rw [hsame]
      exact h.status
    · exact List.mem_of_getElem? hmsg

/-- The recorder is set, with no more keys than there is room for. -/
lemma good_recorder {r : Recorder} (h : s.Good) (hlen : r.lmc_len ≤ MAX_INPUT_LEN - 1)
    (hadding : r.adding2q = true → 0 < r.lmc_len) : Fixed.Good { s with recorder := r } :=
  ⟨⟨h.length, h.line, hlen, hadding⟩, h.status⟩

lemma safe_start_new_cmd_q {cmdcnt : CInt} {c : Char} (h : s.Good) :
    Safe (fun _ => Fixed.Good) E (start_new_cmd_q cmdcnt c) s := by
  have hMAX : MAX_INPUT_LEN = 128 ∧ FixedArray.size .last_modifying_cmd = 128 := ⟨rfl, rfl⟩
  have hdigits := cmdcnt.length_printed_le
  simp only [start_new_cmd_q, Program.bind_eq, safe_bind, safe_recorder]
  split
  · simp only [safe_bind, safe_strcpy, safe_set_recorder, List.length_append, List.length_singleton]
    refine ⟨by omega, good_recorder (h.store (by decide) (by decide)) ?_ fun _ => Nat.succ_pos _⟩
    show _ + 1 ≤ _
    omega
  · simp only [safe_bind, safe_store, safe_set_recorder, List.length_singleton]
    exact ⟨by omega, good_recorder (h.store (by decide) (by decide))
      (show 1 ≤ MAX_INPUT_LEN - 1 by decide) fun _ => Nat.one_pos⟩

lemma safe_replay (h : s.Good) : Safe (fun _ => Fixed.Good) E replay s := by
  have hlen := h.lmc_len
  simp only [replay, Program.bind_eq, safe_bind, safe_recorder]
  split
  · simp only [safe_bind, safe_store, safe_load, safe_set_recorder, List.length_singleton]
    exact ⟨Nat.succ_le_of_lt (Nat.lt_of_le_of_lt hlen (by decide)),
      good_recorder (h.store (by decide) (by decide)) hlen h.adding2q⟩
  · exact safe_ret.mpr h

/-- A call that meets the condition stays inside the arrays and keeps what holds between calls. -/
lemma safe_call {call : Call} (h : s.Good) (hroom : call.Roomy s) :
    Safe (fun _ => Fixed.Good) (fun _ => True) call.body s := by
  cases call with
  | show_status_line status columns => exact safe_show_status_line h
  | format_edit_status status columns => exact safe_format_edit_status h.toSound
  | no_status =>
    refine safe_store.mpr ⟨by decide, h.toSound.store (by decide), ?_⟩
    rw [Fixed.store_mem]
    exact (@holds_strcpy _ [] (List.length_pos_of_mem h.status)).mem
  | not_displayed => exact safe_store.mpr ⟨by decide, h.store (by decide) (by decide)⟩
  | get_one_char =>
    exact safe_bind.mpr ((safe_get_one_char h).mono fun _ _ hs' => safe_ret.mpr hs')
  | start_new_cmd_q cmdcnt c => exact safe_start_new_cmd_q h
  | end_cmd_q =>
    simp only [Call.body, end_cmd_q, Program.bind_eq, safe_bind, safe_recorder, safe_set_recorder]
    exact good_recorder h h.lmc_len (fun h => by cases h)
  | replay => exact safe_replay h
  | get_input_line erase_char prompt =>
    refine safe_get_input_line h.toSound ?_ hroom
    obtain ⟨p, rfl | rfl | rfl⟩ := prompt <;> decide
  | colon behind has_pattern => exact safe_colon h hroom
  | message m =>
    refine (safe_message h.toSound ?_).mono fun _ _ hs' => hs'.good
    rw [Msg.length_eq]
    exact hroom

/-- A call that stays inside the arrays meets the condition. -/
lemma roomy_of_inside {call : Call} (h : s.Good) (hin : Inside call.body s) : call.Roomy s := by
  cases call with
  | get_input_line erase_char prompt =>
    intro hidle
    refine not_fills_of_inside h.toSound ?_ hidle hin
    obtain ⟨p, rfl | rfl | rfl⟩ := prompt <;> decide
  | colon behind has_pattern => exact room_of_inside_colon h hin
  | message m =>
    have hlen := length_lt_of_inside_message h.toSound hin
    rwa [Msg.length_eq] at hlen
  | _ => trivial

end Fix

/-- Every call of a run meets the condition in the state it finds. -/
def Call.AllRoomy : List Call → Fixed → Prop
  | [], _ => True
  | call :: calls, s => call.Roomy s ∧
      ∀ u s', call.body.run Act.exec s = .done u s' → AllRoomy calls s'

lemma inside_all_iff {calls : List Call} {s : Fixed} (h : s.Good) :
    Fix.Inside (Call.all calls) s ↔ Call.AllRoomy calls s := by
  induction calls generalizing s with
  | nil => exact ⟨fun _ => trivial, fun _ => trivial⟩
  | cons call calls ih =>
    rw [Call.AllRoomy, Call.all, Program.bind_eq, Fix.Inside, Program.along_bind]
    constructor
    · rintro ⟨hin, hrest⟩
      have hroom := Fix.roomy_of_inside h hin
      refine ⟨hroom, fun u s' hrun => (ih ?_).mp (hrest u s' hrun)⟩
      exact (Fix.safe_call h hroom).done hrun
    · rintro ⟨hroom, hrest⟩
      have hsafe := Fix.safe_call h hroom
      exact ⟨hsafe.1, fun u s' hrun => (ih (hsafe.done hrun)).mpr (hrest u s' hrun)⟩

lemma good_start (keys : List Char) : (Fixed.start keys).Good where
  length array := List.length_replicate
  line := rfl
  lmc_len := Nat.zero_le _
  adding2q := nofun
  status := List.mem_replicate.mpr ⟨by decide, rfl⟩

/-- Whatever is typed and whatever the names of the files are, all stores of a run are inside their
arrays exactly if every call of it meets the condition. -/
theorem fixed_buffers_inside (keys : List Char) (calls : List Call) :
    (Call.all calls).Along Act.exec Act.Inside (Fixed.start keys) ↔
      Call.AllRoomy calls (Fixed.start keys) := inside_all_iff (good_start keys)

lemma fills_xs : Fills '\x08' [] (List.replicate 127 'x') :=
  ⟨List.replicate 127 'x', List.prefix_refl _, List.replicate 127 'x', by decide +kernel,
    List.length_replicate, fun h => absurd (List.eq_of_mem_replicate h) (by decide)⟩

/-- It is not met when 127 keys are typed behind `:`, nor when a file with a long name is
read-only. -/
theorem fixed_buffers_overflow :
    ¬ (Call.all [.get_input_line '\x08' ⟨':', .inl rfl⟩]).Along Act.exec Act.Inside
        (Fixed.start (List.replicate 127 'x')) ∧
      ¬ (Call.all [.message (.read_only ⟨List.replicate 200 'x', by decide⟩)]).Along Act.exec
        Act.Inside (Fixed.start []) := by
  constructor
  · intro h
    exact ((inside_all_iff (good_start _)).mp h).1 rfl fills_xs
  · decide +kernel

end EspLinux.Vi
