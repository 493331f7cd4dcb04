import EspLinux.Ccd.Stream
import EspLinux.Ccd.TextMeaning

/-!
# Exposure requests as text and as messages

An `EXPOSE` request of a text client passes on the parameters that the binary message with the
same values has, with the defaults for those that it does not name, whatever their order, the
letter case and the white space.  But the white space in front of a token has to fit into the
input buffer together with it: a full buffer without a token is never emptied again
(`expose_text_as_message`).
-/

namespace EspLinux.Ccd

open EspLinux.Lib

/-! ## Parameters -/

/-- The default values of the nine attributes. -/
def exposure_defaults (g : Geometry) : Fin 9 → ℕ :=
  ![g.width, g.height, 0, 0, 1, 1, g.dac_bits, 0, 1000]

/-- The value of an attribute. -/
def exposure_value (g : Geometry) (l : List (Fin 9 × ℕ)) (i : Fin 9) : ℕ :=
  (l.lookup i).getD (exposure_defaults g i)

/-- The ten parameters of the message with these values: one for each attribute, and the upper
half of `MSEC`. -/
def exposure_parms (g : Geometry) (l : List (Fin 9 × ℕ)) : Vector UInt16 10 :=
  Vector.ofFn fun j =>
    if h : j.val < 9 then UInt16.ofNat (exposure_value g l ⟨j.val, h⟩)
    else UInt16.ofNat (exposure_value g l 8 / 2 ^ 16)

/-! ## The buffer -/

/-- What is left of a text when some lexemes have been taken off it. -/
inductive Leaves : List UInt8 → List UInt8 → Prop
  | refl (buf : List UInt8) : Leaves buf buf
  | more {buf rest v : List UInt8} {x : Lexeme} :
      next_lexeme buf = some (x, rest) → Leaves rest v → Leaves buf v

/-- Wherever more of the text is left than the buffer holds, there is a lexeme in a full buffer of
it. -/
def Readable (text : List UInt8) : Prop :=
  ∀ v, Leaves text v → MAX_IN_BUF_SIZE < v.length → next_lexeme (v.take MAX_IN_BUF_SIZE) ≠ none

variable {g : Geometry} {answer : List Action → ℤ} {l : List (Fin 9 × ℕ)} {x : Session}
  {text a b u v w d : List UInt8} {ls : List Lexeme} {ds : List (List UInt8)} {es : List Input}
  {t : Talk} {i : Fin 9}

/-! ## The parameters of a text -/

/-- An attribute that is named once has its value at the end. -/
lemma foldl_set_attrib_of_mem (hl : (l.map Prod.fst).Nodup) {n value : ℕ}
    (h : l.lookup i = some value) (hn : sets CCD_EXP_MSEC_LO_INDEX (i.val, value) n) :
    ∃ y : Session, (((TextMessage.expose l).attribs.foldl
        (Session.set_attrib CCD_EXP_MSEC_LO_INDEX) x).parse_msg n) =
      (y.set_attrib CCD_EXP_MSEC_LO_INDEX (i.val, value)).parse_msg n := by
  obtain ⟨l₁, l₂, rfl, -⟩ := List.lookup_eq_some_iff.mp h
  have hnot : ∀ a ∈ (TextMessage.expose l₂).attribs, ¬ sets CCD_EXP_MSEC_LO_INDEX a n := by
    rintro a ha hset
    obtain ⟨c, hc, rfl⟩ := List.mem_map.mp ha
    have hne : c.1 ≠ i := by
      intro hci
      have hmem : c.1 ∈ l₂.map Prod.fst := List.mem_map_of_mem hc
      rw [List.map_append, List.map_cons, List.nodup_append] at hl
      exact (List.nodup_cons.mp hl.2.1).1 (hci ▸ hmem)
    refine hne (Fin.ext ?_)
    have hc₁ := c.1.isLt
    have hi₁ := i.isLt
    unfold sets CCD_EXP_WIDTH_INDEX CCD_EXP_MSEC_LO_INDEX at hn hset
    dsimp only at hn hset
    omega
  refine ⟨(l₁.map fun a => (a.1.val, a.2)).foldl (Session.set_attrib CCD_EXP_MSEC_LO_INDEX) x, ?_⟩
  rw [TextMessage.attribs, List.map_append, List.map_cons, List.foldl_append, List.foldl_cons]
  exact foldl_set_attrib_keep hnot

/-- An attribute that is not named leaves its place alone. -/
lemma foldl_set_attrib_of_not_mem (h : l.lookup i = none) {n value : ℕ}
    (hn : sets CCD_EXP_MSEC_LO_INDEX (i.val, value) n) :
    ((TextMessage.expose l).attribs.foldl
        (Session.set_attrib CCD_EXP_MSEC_LO_INDEX) x).parse_msg n = x.parse_msg n := by
  refine foldl_set_attrib_keep ?_
  rintro a ha hset
  obtain ⟨c, hc, rfl⟩ := List.mem_map.mp ha
  have hne : i ≠ c.1 := by
    have := List.lookup_eq_none_iff.mp h c hc
    simpa using this
  refine hne (Fin.ext ?_)
  have hc₁ := c.1.isLt
  have hi₁ := i.isLt
  unfold sets CCD_EXP_WIDTH_INDEX CCD_EXP_MSEC_LO_INDEX at hn hset
  dsimp only at hn hset
  omega

lemma start_expose_msg {n : ℕ} (hn : n < 10) :
    ((TextMessage.expose l).start g x).parse_msg (CCD_EXP_WIDTH_INDEX + n) =
      ([UInt16.ofNat g.width, UInt16.ofNat g.height, 0, 0, 1, 1, UInt16.ofNat g.dac_bits, 0, 1000,
        0] : List UInt16).getD n 0 := by
  have hne : CCD_EXP_WIDTH_INDEX + n ≠ CCD_MSG_INDEX := by
    unfold CCD_MSG_INDEX CCD_EXP_WIDTH_INDEX
    omega
  refine (Function.update_of_ne hne _ _).trans ?_
  show exp_defaults g x.parse_msg (CCD_EXP_WIDTH_INDEX + n) = _
  rw [exp_defaults, if_pos ⟨by omega, by omega⟩, Nat.add_sub_cancel_left]

lemma default_elem (g : Geometry) (i : Fin 9) :
    ([UInt16.ofNat g.width, UInt16.ofNat g.height, 0, 0, 1, 1, UInt16.ofNat g.dac_bits, 0, 1000,
      0] : List UInt16).getD i.val 0 = UInt16.ofNat (exposure_defaults g i) := by
  fin_cases i <;> rfl

/-- The value of an attribute in the message of the parser. -/
lemma expose_msg (hl : (l.map Prod.fst).Nodup) (i : Fin 9) :
    ((TextMessage.expose l).attribs.foldl (Session.set_attrib CCD_EXP_MSEC_LO_INDEX)
      ((TextMessage.expose l).start g x)).parse_msg (CCD_EXP_WIDTH_INDEX + i.val) =
        UInt16.ofNat (exposure_value g l i) := by
  have hsets (value : ℕ) : sets CCD_EXP_MSEC_LO_INDEX (i.val, value) (CCD_EXP_WIDTH_INDEX + i.val) :=
    .inl (Nat.add_comm _ _)
  cases h : l.lookup i with
  | some value =>
    obtain ⟨y, hy⟩ := foldl_set_attrib_of_mem (x := (TextMessage.expose l).start g x) hl h (hsets value)
    rw [hy, exposure_value, h, set_attrib_msg, Nat.add_comm CCD_EXP_WIDTH_INDEX]
    dsimp only [Option.getD_some]
    split
    · rename_i hlong
      rw [Function.update_of_ne (by omega), hlong, Function.update_self]
    · rw [Function.update_self]
  | none =>
    rw [foldl_set_attrib_of_not_mem h (hsets 0), start_expose_msg (by omega), exposure_value, h,
      Option.getD_none, default_elem]

/-- The upper half of the time. -/
lemma expose_msec (hl : (l.map Prod.fst).Nodup) :
    ((TextMessage.expose l).attribs.foldl (Session.set_attrib CCD_EXP_MSEC_LO_INDEX)
      ((TextMessage.expose l).start g x)).parse_msg (CCD_EXP_WIDTH_INDEX + 9) =
        UInt16.ofNat (exposure_value g l 8 / 2 ^ 16) := by
  have hsets (value : ℕ) : sets CCD_EXP_MSEC_LO_INDEX ((8 : Fin 9).val, value)
      (CCD_EXP_WIDTH_INDEX + 9) := .inr ⟨rfl, rfl⟩
  cases h : l.lookup 8 with
  | some value =>
    obtain ⟨y, hy⟩ := foldl_set_attrib_of_mem (x := (TextMessage.expose l).start g x) hl h (hsets value)
    rw [hy, exposure_value, h, set_attrib_msg,
      if_pos (show (8 : Fin 9).val + CCD_EXP_WIDTH_INDEX = CCD_EXP_MSEC_LO_INDEX from rfl)]
    exact Function.update_self _ _ _
  | none =>
    rw [foldl_set_attrib_of_not_mem h (hsets 0), start_expose_msg (by omega), exposure_value, h]
    show (0 : UInt16) = UInt16.ofNat (1000 / 2 ^ 16)
    rfl

/-- The parameters that a text passes on are those of the message. -/
lemma passed_expose (hl : (l.map Prod.fst).Nodup) :
    (TextMessage.expose l).passed g x = [.expose (exposure_parms g l).toList] := by
  refine congrArg (fun parms => [Action.expose parms]) ?_
  refine List.ext_getElem (by simp) fun n h₁ h₂ => ?_
  have hn : n < 10 := by simpa using h₂
  rw [getElem_slice, Vector.getElem_toList]
  simp only [exposure_parms, Vector.getElem_ofFn]
  split
  · rename_i h
    exact expose_msg hl ⟨n, h⟩
  · rename_i h
    obtain rfl : n = 9 := by omega
    exact expose_msec hl

/-! ## Full buffers -/

lemma Leaves.trans (h : Leaves a b) (h' : Leaves b u) : Leaves a u := by
  induction h with
  | refl => exact h'
  | more hs _ ih => exact .more hs (ih h')

lemma Leaves.length_le (h : Leaves a b) : b.length ≤ a.length := by
  induction h with
  | refl => exact le_rfl
  | more hs _ ih => exact ih.trans (next_lexeme_length hs).le

/-- A text that fits into the buffer is readable. -/
lemma readable_of_length (h : text.length ≤ MAX_IN_BUF_SIZE) : Readable text :=
  fun _ hv hlong => absurd (hv.length_le.trans h) (by omega)

/-- The lexemes of the first part may be taken off. -/
lemma Reads.leaves (h : Reads a ls u) (b : List UInt8) : Leaves (a ++ b) (u ++ b) := by
  induction h with
  | stop _ => exact .refl _
  | more hs _ ih => exact .more (next_lexeme_append hs) ih

/-- What is left starts with something unread of the first part, or else with a lexeme of it. -/
lemma Leaves.cases_of_reads (h : Reads a ls u) (hw : Leaves (a ++ b) w) :
    Leaves (u ++ b) w ∨
      ∃ v, w = v ++ b ∧ v.length ≤ a.length ∧ next_lexeme v ≠ none := by
  induction h with
  | stop _ => exact .inl hw
  | @more buf rest u x ls hs _ ih =>
    cases hw with
    | refl =>
      refine .inr ⟨buf, rfl, le_rfl, fun hnone => ?_⟩
      rw [hs] at hnone
      cases hnone
    | more hs' hw =>
      rw [next_lexeme_append hs] at hs'
      cases hs'
      rcases ih hw with h | ⟨v, rfl, hlen, hv⟩
      · exact .inl h
      · exact .inr ⟨v, rfl, hlen.trans (next_lexeme_length hs).le, hv⟩

/-- Where the writes come to an end, the text is readable. -/
lemma Heard.readable (h : Heard u ds es v) (hu : next_lexeme u = none)
    (hlen : u.length ≤ MAX_IN_BUF_SIZE) : Readable (u ++ ds.flatten.map upper) := by
  induction h with
  | nil =>
    rw [List.flatten_nil, List.map_nil, List.append_nil]
    exact readable_of_length hlen
  | next _ ih => exact ih hu hlen
  | @write u v z chunk rest ds ls es hne hchunk hr _ ih =>
    have hfit : (u ++ chunk.map upper).length ≤ MAX_IN_BUF_SIZE := by
      rw [List.length_append, List.length_map]
      omega
    have hv : v.length ≤ MAX_IN_BUF_SIZE := (Nat.le_add_left _ _).trans (hr.length_le.trans hfit)
    rw [List.flatten_cons, List.append_assoc, List.map_append, ← List.append_assoc]
    intro w hw hlong
    rcases hw.cases_of_reads hr with hw | ⟨y, rfl, hy, hlexeme⟩
    · have hrest := ih hr.unread hv
      rw [List.flatten_cons] at hrest
      exact hrest w hw hlong
    · -- the lexeme is in the buffer
      have htake : (y ++ (rest ++ ds.flatten).map upper).take MAX_IN_BUF_SIZE =
          y ++ ((rest ++ ds.flatten).map upper).take (MAX_IN_BUF_SIZE - y.length) := by
        rw [List.take_append, List.take_of_length_le (hy.trans hfit)]
      obtain ⟨⟨x, rest'⟩, hx⟩ := Option.ne_none_iff_exists'.mp hlexeme
      rw [htake, next_lexeme_append hx]
      exact nofun

/-- And the writes of a readable text come to an end. -/
lemma exists_heard (hu : next_lexeme u = none) (hlen : u.length ≤ MAX_IN_BUF_SIZE)
    (h : Readable (u ++ d.map upper)) : ∃ es v, Heard u [d] es v := by
  induction hn : d.length using Nat.strong_induction_on generalizing u d with
  | _ n ih =>
    cases d with
    | nil => exact ⟨[], u, .next .nil⟩
    | cons c l =>
      by_cases hroom : u.length < MAX_IN_BUF_SIZE
      · obtain ⟨chunk, rest, heq, hne, hchunk⟩ := exists_chunk (c := c) (l := l) hroom
        obtain ⟨ls, v, hr⟩ := Reads.total (u ++ chunk.map upper)
        have hfit : (u ++ chunk.map upper).length ≤ MAX_IN_BUF_SIZE := by
          rw [List.length_append, List.length_map]
          omega
        have hv : v.length ≤ MAX_IN_BUF_SIZE :=
          (Nat.le_add_left _ _).trans (hr.length_le.trans hfit)
        have hrest : Readable (v ++ rest.map upper) := fun w hw hlong => by
          refine h w ?_ hlong
          rw [heq, List.map_append, ← List.append_assoc]
          exact (hr.leaves _).trans hw
        have hshort : rest.length < n := by
          have hpos := List.length_pos_iff.mpr hne
          rw [← hn, heq, List.length_append]
          omega
        obtain ⟨es, w, hheard⟩ := ih rest.length hshort hr.unread hv hrest rfl
        rw [heq]
        rw [heq] at hchunk
        exact ⟨_, w, .write hne hchunk hr hheard⟩
      · -- the buffer is full, and there is no lexeme in it
        have hfull : u.length = MAX_IN_BUF_SIZE := by omega
        have htake : (u ++ (c :: l).map upper).take MAX_IN_BUF_SIZE = u := by
          rw [← hfull, List.take_left]
        refine absurd ?_ (h _ (.refl _) ?_)
        · rw [htake]
          exact hu
        · rw [List.length_append, hfull, List.length_map, List.length_cons]
          omega

/-! ## Requests -/

/-- The message of a binary client, in one write. -/
lemma write_exposure {k : Kernel} {m : Mini} {fuel : ℕ} {c : Field} {s : State}
    {parms : Vector UInt16 10} (hf : MAX_IN_BUF_SIZE < fuel)
    (h : Awaits c s [] [.expose parms]) :
    ∃ s' n, ccd_write k m fuel c (Message.expose parms).bytes s = some (s', .ok n) ∧
      acted k m c fuel { s with
          toCore := s.toCore.set_client c ((s.clients c).take_in (Message.expose parms).bytes) } =
        [.expose parms.toList] := by
  have hencode : encode [.expose parms] = (Message.expose parms).bytes :=
    List.flatMap_singleton _ _
  have hlen : (Message.expose parms).bytes.length = CCD_MSG_EXP_LEN := Message.length_bytes _
  have hne : (Message.expose parms).bytes ≠ [] := by
    intro hnil
    rw [hnil] at hlen
    cases hlen
  have htake : (Message.expose parms).bytes.take MAX_IN_BUF_SIZE = encode [.expose parms] := by
    rw [hencode, List.take_of_length_le (by rw [hlen]; decide)]
  obtain ⟨s', hs', hacted, -⟩ := ccd_write_whole (k := k) (m := m) hf hne htake h
  exact ⟨s', _, hs', hacted⟩

/-- The text of an exposure request passes on the parameters that a binary message with the same
values, and the defaults for the others, passes on, exactly as long as every full buffer of it has
a lexeme. -/
theorem expose_text_as_message (hl : (l.map Prod.fst).Nodup) (ht : t.between)
    (hlen : t.in_buf.length ≤ MAX_IN_BUF_SIZE)
    (hd : Spells (TextMessage.expose l).lexemes (text.map upper)) :
    (∀ (k : Kernel) (m : Mini) (fuel : ℕ) (c : Field) (s : State), MAX_IN_BUF_SIZE < fuel →
      Awaits c s [] [.expose (exposure_parms g l)] →
      ∃ s' n, ccd_write k m fuel c (Message.expose (exposure_parms g l)).bytes s =
          some (s', .ok n) ∧
        acted k m c fuel { s with
            toCore := s.toCore.set_client c
              ((s.clients c).take_in (Message.expose (exposure_parms g l)).bytes) } =
          [.expose (exposure_parms g l).toList]) ∧
    ((∃ s, text_writes g answer [text] t = some s ∧
        calls s.session.acts =
          calls t.session.acts ++ [.expose (exposure_parms g l).toList]) ↔
      Readable (t.in_buf ++ text.map upper)) := by
  have hblank := ht.2
  have hnone := next_lexeme_of_blank hblank
  have hd' : Spells (TextMessage.expose l).lexemes ([text].flatten.map upper) := by
    rw [List.flatten_singleton]
    exact hd
  refine ⟨fun k m fuel c s hf h => write_exposure hf h, ?_, fun hread => ?_⟩
  · rintro ⟨s, hs, -⟩
    obtain ⟨es, hheard, -⟩ := heard_of_writes (upper_blank hblank) hnone hs
    have hread := hheard.readable hnone hlen
    rwa [List.flatten_singleton] at hread
  · obtain ⟨es, v, hheard⟩ := exists_heard hnone hlen hread
    obtain ⟨s, hs⟩ : ∃ s, text_writes g answer [text] t = some s :=
      ⟨_, (writes_of_heard hheard (upper_blank hblank) t.session t.last_errorno).1⟩
    obtain ⟨e, he⟩ := text_writes_after ht hd' hs
    refine ⟨s, hs, ?_⟩
    rw [he, calls_after, passed_expose hl]

/-- A request that names the time. -/
lemma spells_msec : Spells (TextMessage.expose [(8, 70000)]).lexemes
    ((chars "<expose msec = 70000/>").map upper) := by
  have htext : (chars "<expose msec = 70000/>").map upper = [] ++ ([60] ++ ([] ++ (chars "EXPOSE" ++
      ([32] ++ (chars "MSEC" ++ ([32] ++ ([61] ++ ([32] ++ (chars "70000" ++
        ([] ++ ([47] ++ ([] ++ ([62] ++ []))))))))))))) := by decide
  have hname : chars "EXPOSE" ≠ [] ∧ (chars "EXPOSE").all isUpper = true := by decide
  have hattrib : chars "MSEC" ≠ [] ∧ (chars "MSEC").all isUpper = true := by decide
  have hdigits : chars "70000" ≠ [] ∧ (chars "70000").all isDigit = true := by decide
  have hnum : SpelledBy (.num 70000) (chars "70000") :=
    .num hdigits.1 (List.all_eq_true.mp hdigits.2)
  rw [htext]
  exact .cons nofun (.punct rfl rfl rfl) (.inl ⟨_, rfl⟩)
    (.cons nofun (.word hname.1 (List.all_eq_true.mp hname.2)) (.inr ⟨32, _, rfl, rfl⟩)
      (.cons (by simp [isBlank]) (.word hattrib.1 (List.all_eq_true.mp hattrib.2))
        (.inr ⟨32, _, rfl, rfl⟩)
        (.cons (by simp [isBlank]) (.punct rfl rfl rfl) (.inl ⟨_, rfl⟩)
          (.cons (by simp [isBlank]) hnum (.inr ⟨47, _, rfl, rfl⟩)
            (.cons nofun (.punct rfl rfl rfl) (.inl ⟨_, rfl⟩)
              (.cons nofun (.punct rfl rfl rfl) (.inl ⟨_, rfl⟩) (.nil nofun)))))))

/-- It passes on the defaults, and 70000 in two halves. -/
theorem expose_text_as_message_msec :
    ∃ s, text_writes .vga (fun _ => 0) [chars "<expose msec = 70000/>"] (.opened .vga) = some s ∧
      calls s.session.acts = [.expose [640, 480, 0, 0, 1, 1, 8, 0, 4464, 1]] := by
  have hread : Readable ([] ++ (chars "<expose msec = 70000/>").map upper) :=
    readable_of_length (by decide)
  exact (expose_text_as_message (g := .vga) (l := [(8, 70000)]) (t := .opened .vga) (by decide)
    ⟨rfl, nofun⟩ (by decide) spells_msec).2.mpr hread

/-- A request with 1024 blanks behind its bracket. -/
def blank_text : List UInt8 := [60] ++ (List.replicate 1024 32 ++ chars "expose/>")

lemma blank_text_upper :
    blank_text.map upper = [60] ++ (List.replicate 1024 32 ++ chars "EXPOSE/>") := by
  have hblank : (List.replicate 1024 (32 : UInt8)).map upper = List.replicate 1024 32 :=
    List.map_replicate
  have hname : (chars "expose/>").map upper = chars "EXPOSE/>" := by decide
  rw [blank_text, List.map_append, List.map_append, hblank, hname]
  rfl

lemma blank_of_replicate : ∀ b ∈ List.replicate 1024 (32 : UInt8), isBlank b = true := by
  intro b hb
  rw [List.eq_of_mem_replicate hb]
  rfl

/-- A lexeme with no blank in front of it. -/
lemma spells_cons {l rest : List UInt8} {x : Lexeme} {ls : List Lexeme} (hx : SpelledBy x l)
    (hend : (∃ b, x = .punct b) ∨ ∃ b rest', rest = b :: rest' ∧ x.endsAt b = true)
    (hrest : Spells ls rest) : Spells (x :: ls) (l ++ rest) := by
  have hgap : ∀ b ∈ ([] : List UInt8), isBlank b = true := nofun
  exact .cons hgap hx hend hrest

/-- Such a request stops the client for ever. -/
theorem blanks_fill_buffer :
    Spells (TextMessage.expose []).lexemes (blank_text.map upper) ∧
      text_writes .vga (fun _ => 0) [blank_text] (.opened .vga) = none := by
  constructor
  · have hname : chars "EXPOSE" ≠ [] ∧ (chars "EXPOSE").all isUpper = true := by decide
    have htext : chars "EXPOSE/>" = chars "EXPOSE" ++ ([] ++ ([47] ++ ([] ++ ([62] ++ [])))) := by
      decide
    rw [blank_text_upper, htext]
    exact spells_cons (.punct rfl rfl rfl) (.inl ⟨_, rfl⟩)
      (.cons blank_of_replicate (.word hname.1 (List.all_eq_true.mp hname.2))
        (.inr ⟨47, _, rfl, rfl⟩)
        (.cons nofun (.punct rfl rfl rfl) (.inl ⟨_, rfl⟩)
          (.cons nofun (.punct rfl rfl rfl) (.inl ⟨_, rfl⟩) (.nil nofun))))
  · by_contra hsome
    obtain ⟨s, hs⟩ := Option.ne_none_iff_exists'.mp hsome
    obtain ⟨es, hheard, -⟩ := heard_of_writes (t := .opened .vga) rfl rfl hs
    have hread := hheard.readable rfl (Nat.zero_le _)
    rw [List.flatten_singleton, blank_text_upper] at hread
    have hleaves : Leaves ([] ++ ([60] ++ (List.replicate 1024 32 ++ chars "EXPOSE/>")))
        (List.replicate 1024 32 ++ chars "EXPOSE/>") := .more rfl (.refl _)
    refine hread _ hleaves ?_ ?_
    · rw [List.length_append, List.length_replicate]
      decide
    · have htake : (List.replicate 1024 32 ++ chars "EXPOSE/>").take MAX_IN_BUF_SIZE =
          List.replicate 1024 32 := List.take_left' List.length_replicate
      rw [htake]
      exact next_lexeme_of_blank blank_of_replicate

end EspLinux.Ccd
