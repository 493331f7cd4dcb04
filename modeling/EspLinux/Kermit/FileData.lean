import EspLinux.Kermit.Data

/-!
# A file in data packets

The packets that `getpkt` fills from a file are decoded one by one to the file (`sends_file`).
In text mode a line feed goes as carriage return and line feed, and the receiver drops the
carriage returns: the file arrives as it was exactly if it has none (`sends_text`).
-/

namespace EspLinux.Kermit

variable {p q : Coding} {a : Byte} {us vs : List (ℕ × Byte)}

namespace Coding

/-! ## One character -/

lemma length_body_le (p : Coding) (b : Byte) : (p.body b).length ≤ 2 := by
  rcases body_eq p b with ⟨c, hc⟩ | ⟨hc, -⟩ <;> rw [hc] <;> simp

lemma length_emit_le (p : Coding) (a : Byte) : (p.emit a).length ≤ 3 := by
  by_cases hhigh : p.ebqflg = true ∧ a &&& 128 ≠ 0
  · rw [emit_high hhigh.1 hhigh.2]
    have := length_body_le p (a &&& 127)
    simp only [List.length_cons]
    omega
  · rw [emit_low fun h8 => by_contra fun ha => hhigh ⟨h8, ha⟩]
    have := length_body_le p a
    omega

lemma emit_ne_nil (p : Coding) (a : Byte) : p.emit a ≠ [] := by
  rw [emit]
  intro h
  have hend := (List.append_eq_nil_iff.mp h).2
  split_ifs at hend

lemma length_spell_le (p : Coding) (u : ℕ × Byte) : (p.spell u).length ≤ 5 := by
  have := length_emit_le p u.2
  rw [spell, List.length_append]
  split <;> simp only [List.length_nil, List.length_cons] <;> omega

lemma spell_ne_nil (p : Coding) (u : ℕ × Byte) : p.spell u ≠ [] :=
  fun h => emit_ne_nil p u.2 (List.append_eq_nil_iff.mp h).2

lemma spells_eq_nil : p.spells us = [] ↔ us = [] := by
  cases us with
  | nil => simp
  | cons u us => simp [spell_ne_nil]

/-- What one call of `encode` adds to the field: units, in two parts `done` and `late` between which
the field may be cut. -/
structure Encoded (p : Coding) (maxsiz : ℕ) (f : Field) (a : Byte) (next : Option Byte)
    (f' : Field) (done late : List (ℕ × Byte)) : Prop where
  xdata : f'.xdata = f.xdata ++ p.spells done ++ p.spells late
  osize : f'.osize = (f.xdata ++ p.spells done).length
  units : ∀ u ∈ done ++ late, p.IsUnit u
  runs : runs (done ++ late) ++ List.replicate f'.rpt a = List.replicate f.rpt a ++ [a]
  rpt : f'.rpt ≤ 93 ∧ (f'.rpt ≠ 0 → p.rptflg = true ∧ next = some a ∧ done ++ late = [])
  room : done ≠ [] → f'.osize ≤ maxsiz
  short : (p.spells late).length ≤ 6
  /-- Six characters are the two of a run, with three each. -/
  wide : 6 ≤ (p.spells late).length → p.rptflg = true ∧ f.rpt = 1 ∧ 3 ≤ (p.emit a).length
  late : done ++ late ≠ [] → late ≠ []

section Encode

variable {maxsiz : ℕ} {f : Field} {next : Option Byte}

lemma isUnit_one (p : Coding) (a : Byte) : p.IsUnit (1, a) :=
  ⟨le_rfl, show 1 ≤ 94 by decide, fun h => absurd rfl h⟩

lemma spells_one (p : Coding) (a : Byte) : p.spells [(1, a)] = p.emit a := by
  rw [spells_cons, spells_nil, List.append_nil, spell, if_pos rfl, List.nil_append]

lemma spells_count {n : ℕ} (hn : n ≠ 1) (a : Byte) :
    p.spells [(n, a)] = [p.rptq, tochar n] ++ p.emit a := by
  rw [spells_cons, spells_nil, List.append_nil, spell, if_neg hn]

lemma length_spells_one_le (p : Coding) (u : ℕ × Byte) : (p.spells [u]).length ≤ 5 := by
  rw [spells_cons, spells_nil, List.append_nil]
  exact length_spell_le p u

/-- One unit never takes six places. -/
lemma not_six_le_spells_one {u : ℕ × Byte} (h : 6 ≤ (p.spells [u]).length) : False := by
  have := length_spells_one_le p u
  omega

/-- A character is counted, and nothing is written yet. -/
lemma encoded_wait (hosize : f.osize = f.xdata.length) (hflg : p.rptflg = true)
    (hnext : next = some a) (hlt : f.rpt + 1 < 94) :
    p.Encoded maxsiz f a next { f with rpt := f.rpt + 1 } [] [] where
  xdata := by simp
  osize := by simpa using hosize
  units := by simp
  runs := by simp [List.replicate_succ']
  rpt := ⟨Nat.le_of_lt_succ hlt, fun _ => ⟨hflg, hnext, rfl⟩⟩
  room := by simp
  short := by simp
  wide := fun h => absurd h (by simp)
  late := by simp

/-- A run ends, and is written as one unit. -/
lemma encoded_single (hosize : f.osize = f.xdata.length) (hunit : p.IsUnit (f.rpt + 1, a)) :
    p.Encoded maxsiz f a next
      { f with xdata := f.xdata ++ p.spells [(f.rpt + 1, a)], rpt := 0 } [] [(f.rpt + 1, a)] where
  xdata := by simp
  osize := by simpa using hosize
  units := by simpa using hunit
  runs := by simp [List.replicate_succ']
  rpt := by simp
  room := by simp
  short := (length_spells_one_le p _).trans (by decide)
  wide := fun h => (not_six_le_spells_one h).elim
  late := by simp

/-- A run of two ends, and the first of the two still fits. -/
lemma encoded_cut (htwo : f.rpt = 1) (hfit : (f.xdata ++ p.emit a).length ≤ maxsiz) :
    p.Encoded maxsiz f a next
      { xdata := f.xdata ++ p.emit a ++ p.emit a, osize := (f.xdata ++ p.emit a).length, rpt := 0 }
      [(1, a)] [(1, a)] where
  xdata := by simp only [spells_one]
  osize := by simp only [spells_one]
  units := by simpa using isUnit_one p a
  runs := by simp [htwo]
  rpt := by simp
  room := fun _ => hfit
  short := (length_spells_one_le p _).trans (by decide)
  wide := fun h => (not_six_le_spells_one h).elim
  late := by simp

/-- A run of two ends, and not even the first of the two fits. -/
lemma encoded_pair (hosize : f.osize = f.xdata.length) (hflg : p.rptflg = true)
    (htwo : f.rpt = 1) :
    p.Encoded maxsiz f a next
      { f with xdata := f.xdata ++ p.emit a ++ p.emit a, rpt := 0 } [] [(1, a), (1, a)] where
  xdata := by simp [spells_cons, spell]
  osize := by simpa using hosize
  units := by simpa using isUnit_one p a
  runs := by simp [htwo]
  rpt := by simp
  room := by simp
  short := by
    have := length_emit_le p a
    simp only [spells_cons, spells_nil, spell, List.length_append, List.length_nil, if_true]
    omega
  wide := by
    intro h
    simp only [spells_cons, spells_nil, spell, List.length_append, List.length_nil, if_true] at h
    exact ⟨hflg, htwo, by omega⟩
  late := by simp

lemma encoded_encode (hosize : f.osize = f.xdata.length)
    (hrpt : f.rpt ≤ 93 ∧ (f.rpt ≠ 0 → p.rptflg = true)) :
    ∃ done late, p.Encoded maxsiz f a next (p.encode maxsiz f a next) done late := by
  have hzero : f.rpt = 0 → p.Encoded maxsiz f a next { f with xdata := f.xdata ++ p.emit a }
      [] [(1, a)] := by
    intro hzero
    have hunit : p.IsUnit (f.rpt + 1, a) := by
      rw [hzero]
      exact isUnit_one p a
    have hsingle : p.Encoded maxsiz f a next _ _ _ := encoded_single hosize hunit
    rw [hzero, Nat.zero_add, spells_one] at hsingle
    rw [← hzero] at hsingle
    exact hsingle
  have hunit : p.rptflg = true → p.IsUnit (f.rpt + 1, a) := fun hflg =>
    ⟨Nat.le_add_left 1 f.rpt, Nat.succ_le_succ hrpt.1, fun _ => hflg⟩
  rw [encode]
  by_cases hflg : p.rptflg = true
  · rw [if_pos hflg]
    by_cases hnext : next = some a
    · rw [if_pos hnext]
      by_cases hlt : f.rpt + 1 < 94
      · rw [if_pos hlt]
        exact ⟨[], [], encoded_wait hosize hflg hnext hlt⟩
      · have hfull : f.rpt + 1 = 94 := by omega
        rw [if_neg hlt, if_pos hfull]
        have hsingle : p.Encoded maxsiz f a next _ _ _ := encoded_single hosize (hunit hflg)
        rw [hfull, spells_count (by decide)] at hsingle
        exact ⟨[], [(94, a)], hsingle⟩
    · rw [if_neg hnext]
      by_cases htwo : f.rpt = 1
      · rw [if_pos htwo]
        by_cases hfit : (f.xdata ++ p.emit a).length ≤ maxsiz
        · simp only [if_pos hfit]
          exact ⟨[(1, a)], [(1, a)], encoded_cut htwo hfit⟩
        · simp only [if_neg hfit]
          exact ⟨[], [(1, a), (1, a)], encoded_pair hosize hflg htwo⟩
      · rw [if_neg htwo]
        by_cases hmany : 1 < f.rpt
        · rw [if_pos hmany, ← spells_count (by omega)]
          exact ⟨[], [(f.rpt + 1, a)], encoded_single hosize (hunit hflg)⟩
        · rw [if_neg hmany]
          exact ⟨[], [(1, a)], hzero (by omega)⟩
  · rw [if_neg hflg]
    exact ⟨[], [(1, a)], hzero (by_contra fun hne => hflg (hrpt.2 hne))⟩

/-- `getpkt` takes the size of the field down before every call. -/
lemma encoded_next (maxsiz : ℕ) (a : Byte) (next : Option Byte)
    (hrpt : f.rpt ≤ 93 ∧ (f.rpt ≠ 0 → p.rptflg = true)) :
    ∃ done late, p.Encoded maxsiz f a next
      (p.encode maxsiz { f with osize := f.xdata.length } a next) done late := by
  obtain ⟨done, late, h⟩ : ∃ done late, p.Encoded maxsiz { f with osize := f.xdata.length } a next
      (p.encode maxsiz { f with osize := f.xdata.length } a next) done late :=
    encoded_encode rfl hrpt
  exact ⟨done, late, h.xdata, h.osize, h.units, h.runs, h.rpt, h.room, h.short, h.wide, h.late⟩

end Encode

end Coding

/-! ## One packet -/

namespace Coding

/-- Two equal characters side by side that take three places each: of such a run `remain` cannot
keep both. -/
def Wide (p : Coding) (stream : List Byte) : Prop :=
  p.rptflg = true ∧ ∃ a, [a, a] <:+: stream ∧ 3 ≤ (p.emit a).length

lemma Wide.mono {stream stream' : List Byte} (h : p.Wide stream) (hpart : stream <:+: stream') :
    p.Wide stream' := by
  obtain ⟨hflg, a, hpair, hlong⟩ := h
  exact ⟨hflg, a, hpair.trans hpart, hlong⟩

/-- A character that takes three places has its eighth bit set, and a prefix for it. -/
lemma high_of_emit (h : 3 ≤ (p.emit a).length) : p.ebqflg = true ∧ a &&& 128 ≠ 0 := by
  by_contra hlow
  rw [emit_low fun h8 => by_contra fun ha => hlow ⟨h8, ha⟩] at h
  have := length_body_le p a
  omega

/-- On a line that carries eight bits nothing is that long. -/
lemma not_wide_of_ebqflg {stream : List Byte} (h : p.ebqflg = false) : ¬ p.Wide stream := by
  rintro ⟨-, a, -, hlong⟩
  exact absurd (high_of_emit hlong).1 (by simp [h])

end Coding

/-- The source has still to send `stream`: first what is kept from the last packet. -/
def Source.Has (p : Coding) (s : Source) (stream : List Byte) : Prop :=
  match s.first with
  | .start => stream = s.input
  | .going => ∃ us, (∀ u ∈ us, p.IsUnit u) ∧ s.remain = p.spells us ∧
      (p.spells us).length ≤ 6 ∧ stream = runs us ++ s.c :: s.input
  | .ended => ∃ us, (∀ u ∈ us, p.IsUnit u) ∧ s.remain = p.spells us ∧
      (p.spells us).length ≤ 6 ∧ stream = runs us

/-- A packet with the beginning of `stream`, and the source that has still to send the rest. -/
structure Filled (p : Coding) (maxlen : ℕ) (stream : List Byte) (r : List Byte × Source)
    (us : List (ℕ × Byte)) (stream' : List Byte) : Prop where
  data : r.1 = p.spells us
  units : ∀ u ∈ us, p.IsUnit u
  length : r.1.length ≤ maxlen
  has : r.2.Has p stream'
  order : stream = runs us ++ stream'
  /-- Only the end of the file makes an empty packet. -/
  nonempty : us = [] → stream = []

namespace Coding

section Fill

variable {maxsiz maxlen : ℕ} {overrun : Bool} {f : Field}

/-- The count behind a call that wrote something is zero. -/
lemma Encoded.rpt_eq_zero {next : Option Byte} {f' : Field} {done late : List (ℕ × Byte)}
    (h : p.Encoded maxsiz f a next f' done late) (hne : done ++ late ≠ []) : f'.rpt = 0 :=
  by_contra fun hrpt => hne (h.rpt.2 hrpt).2.2

/-- The count behind a call belongs to the next character. -/
lemma Encoded.same {next : Byte} {f' : Field} {done late : List (ℕ × Byte)}
    (h : p.Encoded maxsiz f a (some next) f' done late) :
    List.replicate f'.rpt a = List.replicate f'.rpt next := by
  by_cases hzero : f'.rpt = 0
  · rw [hzero, List.replicate_zero, List.replicate_zero]
  · rw [Option.some.inj (h.rpt.2 hzero).2.1]

/-- The units before the cut are sent, and those behind it are kept. -/
lemma encoded_take {next : Option Byte} {f' : Field} {done late : List (ℕ × Byte)}
    (h : p.Encoded maxsiz f a next f' done late) (hf : f.xdata = p.spells us) :
    f'.xdata.take f'.osize = p.spells (us ++ done) ∧ f'.xdata.drop f'.osize = p.spells late := by
  have hfront : f.xdata ++ p.spells done = p.spells (us ++ done) := by rw [spells_append, hf]
  rw [h.xdata, h.osize, hfront]
  exact ⟨List.take_left, List.drop_left⟩

/-- What a packet that is cut has sent. -/
lemma filled_cut {next : Option Byte} {f' : Field} {done late : List (ℕ × Byte)} {s' : Source}
    {rest : List Byte} (h : p.Encoded maxsiz f a next f' done late) (hroom : 6 < maxlen)
    (hsiz : maxsiz ≤ maxlen) (hf : f.xdata = p.spells us) (hus : ∀ u ∈ us, p.IsUnit u)
    (hlt : f.xdata.length < maxlen) (hcut : maxlen < f'.xdata.length)
    (hhas : (∀ u ∈ late, p.IsUnit u) → s'.remain = p.spells late →
      (p.spells late).length ≤ 6 → s'.Has p (runs late ++ rest))
    (hremain : s'.remain = f'.xdata.drop f'.osize) :
    ∃ vs stream', vs ≠ [] ∧ Filled p maxlen (runs us ++ List.replicate f.rpt a ++ a :: rest)
      (f'.xdata.take f'.osize, s') vs stream' := by
  obtain ⟨htake, hdrop⟩ := encoded_take h hf
  have hne : done ++ late ≠ [] := by
    intro hnil
    obtain ⟨rfl, rfl⟩ := List.append_eq_nil_iff.mp hnil
    rw [h.xdata, spells_nil, List.append_nil, List.append_nil] at hcut
    omega
  have hsplit : f'.xdata.length = (p.spells (us ++ done)).length + (p.spells late).length := by
    rw [← htake, ← hdrop, ← List.length_append, List.take_append_drop]
  have hshort := h.short
  have hvs : us ++ done ≠ [] := by
    intro hnil
    rw [hnil, spells_nil, List.length_nil] at hsplit
    omega
  have hunits : (∀ u ∈ us ++ done, p.IsUnit u) ∧ ∀ u ∈ late, p.IsUnit u := by
    refine ⟨fun u hu => ?_, fun u hu => h.units u (List.mem_append_right done hu)⟩
    rcases List.mem_append.mp hu with hu | hu
    · exact hus u hu
    · exact h.units u (List.mem_append_left late hu)
  have hsent : (p.spells (us ++ done)).length ≤ maxlen := by
    cases done with
    | nil =>
      rw [List.append_nil, ← hf]
      exact hlt.le
    | cons u done =>
      have hosize : f'.osize ≤ maxsiz := h.room (List.cons_ne_nil u done)
      rw [h.osize, hf, ← spells_append] at hosize
      exact hosize.trans hsiz
  have hruns : runs done ++ runs late = List.replicate f.rpt a ++ [a] := by
    have := h.runs
    rwa [h.rpt_eq_zero hne, List.replicate_zero, List.append_nil, runs_append] at this
  refine ⟨us ++ done, runs late ++ rest, hvs, ?_⟩
  refine ⟨htake, hunits.1, ?_, ?_, ?_, fun hnil => absurd hnil hvs⟩
  · show (f'.xdata.take f'.osize).length ≤ maxlen
    rw [htake]
    exact hsent
  · exact hhas hunits.2 (hremain.trans hdrop) hshort
  · calc runs us ++ List.replicate f.rpt a ++ a :: rest
        = runs us ++ (List.replicate f.rpt a ++ [a]) ++ rest := by simp
      _ = runs (us ++ done) ++ (runs late ++ rest) := by rw [← hruns]; simp

/-- What a packet that is just full, or at the end of the file, has sent. -/
lemma filled_whole {next : Option Byte} {f' : Field} {done late : List (ℕ × Byte)} {s' : Source}
    {rest : List Byte} (h : p.Encoded maxsiz f a next f' done late) (hf : f.xdata = p.spells us)
    (hus : ∀ u ∈ us, p.IsUnit u) (hne : done ++ late ≠ []) (hfit : f'.xdata.length ≤ maxlen)
    (hhas : s'.Has p rest) :
    ∃ vs stream', vs ≠ [] ∧ Filled p maxlen (runs us ++ List.replicate f.rpt a ++ a :: rest)
      (f'.xdata, s') vs stream' := by
  have hruns : runs (done ++ late) = List.replicate f.rpt a ++ [a] := by
    have := h.runs
    rwa [h.rpt_eq_zero hne, List.replicate_zero, List.append_nil] at this
  have hvs : us ++ (done ++ late) ≠ [] := fun hnil => hne (List.append_eq_nil_iff.mp hnil).2
  refine ⟨us ++ (done ++ late), rest, hvs, ?_⟩
  refine ⟨?_, fun u hu => ?_, hfit, hhas, ?_, fun hnil => absurd hnil hvs⟩
  · show f'.xdata = _
    rw [h.xdata, hf, spells_append, spells_append, List.append_assoc]
  · rcases List.mem_append.mp hu with hu | hu
    · exact hus u hu
    · exact h.units u hu
  · rw [runs_append, hruns]
    simp

/-- The loop fills a packet. -/
lemma filled_fill (us : List (ℕ × Byte)) (input : List Byte) (hroom : 6 < maxlen)
    (hsiz : maxsiz ≤ maxlen) (hf : f.xdata = p.spells us) (hus : ∀ u ∈ us, p.IsUnit u)
    (hlt : f.xdata.length < maxlen) (hrpt : f.rpt ≤ 93 ∧ (f.rpt ≠ 0 → p.rptflg = true)) :
    ∃ vs stream', vs ≠ [] ∧ Filled p maxlen (runs us ++ List.replicate f.rpt a ++ a :: input)
      (p.fill maxsiz maxlen overrun a f input) vs stream' := by
  induction input generalizing a f us with
  | nil =>
    obtain ⟨done, late, henc⟩ := encoded_next maxsiz a none hrpt
    have hne : done ++ late ≠ [] := by
      intro hnil
      have hruns := henc.runs
      rw [hnil, runs_nil, List.nil_append] at hruns
      have hcount : (p.encode maxsiz { f with osize := f.xdata.length } a none).rpt ≠ 0 := by
        intro hzero
        rw [hzero] at hruns
        exact List.append_ne_nil_of_right_ne_nil _ (List.cons_ne_nil a []) hruns.symm
      exact absurd (henc.rpt.2 hcount).2.1 (by simp)
    rw [fill]
    by_cases hcut : maxlen < (p.encode maxsiz { f with osize := f.xdata.length } a none).xdata.length
    · simp only [if_pos hcut]
      refine filled_cut henc hroom hsiz hf hus hlt hcut (fun hunits hremain hshort => ?_) rfl
      exact ⟨late, hunits, hremain, hshort, List.append_nil _⟩
    · simp only [if_neg hcut]
      exact filled_whole henc hf hus hne (Nat.le_of_not_lt hcut) ⟨[], by simp, rfl, by simp, rfl⟩
  | cons next input ih =>
    obtain ⟨done, late, henc⟩ := encoded_next maxsiz a (some next) hrpt
    obtain ⟨f', hf'⟩ : ∃ f', p.encode maxsiz { f with osize := f.xdata.length } a (some next) = f' :=
      ⟨_, rfl⟩
    rw [hf'] at henc
    rw [fill, hf']
    by_cases hfull : f'.xdata.length = maxlen
    · have hne : done ++ late ≠ [] := by
        intro hnil
        obtain ⟨rfl, rfl⟩ := List.append_eq_nil_iff.mp hnil
        rw [henc.xdata, spells_nil, List.append_nil, List.append_nil] at hfull
        exact absurd hfull hlt.ne
      simp only [if_pos hfull]
      exact filled_whole henc hf hus hne hfull.le ⟨[], by simp, rfl, by simp, rfl⟩
    · by_cases hcut : maxlen < f'.xdata.length
      · simp only [if_neg hfull, if_pos hcut]
        refine filled_cut henc hroom hsiz hf hus hlt hcut (fun hunits hremain hshort => ?_) rfl
        exact ⟨late, hunits, hremain, hshort, rfl⟩
      · simp only [if_neg hfull, if_neg hcut]
        -- the units so far, and the count of a run that goes on
        have hxdata : f'.xdata = p.spells (us ++ (done ++ late)) := by
          rw [henc.xdata, hf, spells_append, spells_append, List.append_assoc]
        have hunits : ∀ u ∈ us ++ (done ++ late), p.IsUnit u := by
          intro u hu
          rcases List.mem_append.mp hu with hu | hu
          · exact hus u hu
          · exact henc.units u hu
        obtain ⟨vs, stream', hvs, hfilled⟩ := ih (a := next) _ hxdata hunits (by omega)
          ⟨henc.rpt.1, fun hzero => (henc.rpt.2 hzero).1⟩
        refine ⟨vs, stream', hvs, ?_⟩
        have hstream : runs (us ++ (done ++ late)) ++ List.replicate f'.rpt next ++ next :: input =
            runs us ++ List.replicate f.rpt a ++ a :: next :: input := by
          rw [← henc.same, runs_append, List.append_assoc (runs us), henc.runs]
          simp
        rwa [hstream] at hfilled

/-- One packet takes the next units off the source. -/
theorem filled_getpkt (hroom : 6 < maxlen) (hsiz : maxsiz ≤ maxlen) {s : Source}
    {stream : List Byte} (h : s.Has p stream) :
    ∃ us stream', Filled p maxlen stream (p.getpkt maxsiz maxlen s) us stream' := by
  obtain ⟨first, c, remain, overrun, input⟩ := s
  cases first with
  | start =>
    have hstream : stream = input := h
    cases input with
    | nil =>
      refine ⟨[], [], rfl, by simp, Nat.zero_le _, ⟨[], by simp, rfl, by simp, rfl⟩, hstream, ?_⟩
      exact fun _ => hstream
    | cons a input =>
      obtain ⟨us, stream', -, hfilled⟩ := filled_fill (p := p) (a := a) (f := ⟨[], 0, 0⟩)
        [] input hroom hsiz rfl (by simp) (Nat.zero_lt_of_lt hroom)
        ⟨Nat.zero_le _, fun h => absurd rfl h⟩
      exact ⟨us, stream', by rw [hstream]; exact hfilled⟩
  | going =>
    obtain ⟨us, hus, hremain, hshort, hstream⟩ := h
    have hlt : remain.length < maxlen := by
      have hlength : remain.length = (p.spells us).length := congrArg List.length hremain
      omega
    obtain ⟨vs, stream', -, hfilled⟩ := filled_fill (p := p) (a := c)
      (f := ⟨remain, 0, 0⟩) us input hroom hsiz hremain hus hlt
      ⟨Nat.zero_le _, fun h => absurd rfl h⟩
    rw [List.replicate_zero, List.append_nil] at hfilled
    exact ⟨vs, stream', by rw [hstream]; exact hfilled⟩
  | ended =>
    obtain ⟨us, hus, hremain, hshort, hstream⟩ := h
    have hlength : remain.length = (p.spells us).length := congrArg List.length hremain
    refine ⟨us, [], hremain, hus, ?_, ⟨[], by simp, rfl, by simp, rfl⟩, ?_, fun hnil => ?_⟩
    · show remain.length ≤ maxlen
      omega
    · rw [hstream, List.append_nil]
    · rw [hstream, hnil, runs_nil]

/-- What is kept goes into `remain`, unless it is a wide run. -/
lemma keep_fits {next : Option Byte} {f' : Field} {done late : List (ℕ × Byte)}
    (h : p.Encoded maxsiz f a next f' done late) {rest : List Byte}
    (hfit : ¬ p.Wide (List.replicate f.rpt a ++ a :: rest)) :
    keep overrun (f'.xdata.drop f'.osize) = overrun := by
  have hdrop : f'.xdata.drop f'.osize = p.spells late := by
    rw [h.xdata, h.osize]
    exact List.drop_left
  have hshort : ¬ 6 < (p.spells late).length + 1 := by
    intro hlong
    obtain ⟨hflg, htwo, hthree⟩ := h.wide (Nat.le_of_lt_succ hlong)
    refine hfit ⟨hflg, a, ?_, hthree⟩
    rw [htwo]
    exact (List.prefix_append [a, a] rest).isInfix
  rw [keep, hdrop, decide_eq_false hshort, Bool.or_false]

/-- Without wide runs the loop never goes beyond `remain`. -/
lemma fill_fits (input : List Byte) (hrpt : f.rpt ≤ 93 ∧ (f.rpt ≠ 0 → p.rptflg = true))
    (hfit : ¬ p.Wide (List.replicate f.rpt a ++ a :: input)) :
    (p.fill maxsiz maxlen overrun a f input).2.overrun = overrun := by
  induction input generalizing a f with
  | nil =>
    obtain ⟨done, late, henc⟩ := encoded_next maxsiz a none hrpt
    rw [fill]
    split
    · exact keep_fits henc hfit
    · rfl
  | cons next input ih =>
    obtain ⟨done, late, henc⟩ := encoded_next maxsiz a (some next) hrpt
    obtain ⟨f', hf'⟩ : ∃ f', p.encode maxsiz { f with osize := f.xdata.length } a (some next) = f' :=
      ⟨_, rfl⟩
    rw [hf'] at henc
    rw [fill, hf']
    by_cases hfull : f'.xdata.length = maxlen
    · simp only [if_pos hfull]
    · by_cases hcut : maxlen < f'.xdata.length
      · simp only [if_neg hfull, if_pos hcut]
        exact keep_fits henc hfit
      · simp only [if_neg hfull, if_neg hcut]
        refine ih ⟨henc.rpt.1, fun hzero => (henc.rpt.2 hzero).1⟩ fun hwide => hfit (hwide.mono ?_)
        -- what is left is an end of what there was
        have hsplit : List.replicate f.rpt a ++ a :: next :: input =
            runs (done ++ late) ++ (List.replicate f'.rpt next ++ next :: input) := by
          calc List.replicate f.rpt a ++ a :: next :: input
              = List.replicate f.rpt a ++ [a] ++ next :: input := by simp
            _ = runs (done ++ late) ++ (List.replicate f'.rpt a ++ next :: input) := by
                rw [← henc.runs, List.append_assoc]
            _ = runs (done ++ late) ++ (List.replicate f'.rpt next ++ next :: input) := by
                rw [henc.same]
        rw [hsplit]
        exact (List.suffix_append _ _).isInfix

/-- A packet of a stream without wide runs is filled within `remain`. -/
theorem getpkt_fits {s : Source} {stream : List Byte} (h : s.Has p stream)
    (hfit : ¬ p.Wide stream) : (p.getpkt maxsiz maxlen s).2.overrun = s.overrun := by
  have hfill : ∀ (c : Byte) (remain input : List Byte), c :: input <:+: stream →
      (p.fill maxsiz maxlen s.overrun c ⟨remain, 0, 0⟩ input).2.overrun = s.overrun := by
    intro c remain input hpart
    refine fill_fits input ⟨Nat.zero_le _, fun h => absurd rfl h⟩ fun hwide => ?_
    exact hfit (hwide.mono hpart)
  obtain ⟨first, c, remain, overrun, input⟩ := s
  cases first with
  | start =>
    have hstream : stream = input := h
    cases input with
    | nil => rfl
    | cons a input => exact hfill a [] input (hstream ▸ List.infix_refl _)
  | going =>
    obtain ⟨us, -, -, -, hstream⟩ := h
    exact hfill c remain input (hstream ▸ (List.suffix_append _ _).isInfix)
  | ended => rfl

/-- What has gone beyond `remain` stays so. -/
lemma fill_overrun (input : List Byte)
    (h : (p.fill maxsiz maxlen overrun a f input).2.overrun = false) : overrun = false := by
  induction input generalizing a f with
  | nil =>
    rw [fill] at h
    split at h
    · exact (Bool.or_eq_false_iff.mp h).1
    · exact h
  | cons next input ih =>
    rw [fill] at h
    split_ifs at h
    · exact h
    · exact (Bool.or_eq_false_iff.mp h).1
    · exact ih h

lemma encstr_overrun {text : List Byte}
    (h : (p.encstr maxsiz maxlen overrun text).2.overrun = false) : overrun = false := by
  cases text with
  | nil => exact h
  | cons a input => exact fill_overrun input h

end Fill

/-! ## All packets of a file -/

/-- The data fields of the packets that `sdata` sends in turn, `n` at most, and what is left of the
source. -/
def packets (p : Coding) (maxsiz : ℕ) : ℕ → Source → List (List Byte) × Source
  | 0, s => ([], s)
  | n + 1, s =>
    let (data, s) := p.getpkt maxsiz maxsiz s
    if data = [] then ([], s)
    else
      let (rest, s) := packets p maxsiz n s
      (data :: rest, s)

lemma length_le_runs (hus : ∀ u ∈ us, p.IsUnit u) : us.length ≤ (runs us).length := by
  induction us with
  | nil => exact le_rfl
  | cons u us ih =>
    have hpos : 1 ≤ u.1 := (hus u List.mem_cons_self).1
    have := ih fun v hv => hus v (List.mem_cons_of_mem u hv)
    simp only [List.length_cons, runs_cons, List.length_append, List.length_replicate]
    omega

/-- The packets are units throughout, all together they are the file, and `remain` holds what is
kept between them. -/
lemma packets_units {maxsiz n : ℕ} (hroom : 6 < maxsiz) {s : Source} {stream : List Byte}
    (h : s.Has p stream) (hfit : ¬ p.Wide stream) (hn : stream.length ≤ n) :
    ∃ uss : List (List (ℕ × Byte)), (p.packets maxsiz n s).1 = uss.map p.spells ∧
      (∀ us ∈ uss, us ≠ [] ∧ (∀ u ∈ us, p.IsUnit u) ∧ (p.spells us).length ≤ maxsiz) ∧
      uss.flatMap runs = stream ∧ (p.packets maxsiz n s).2.overrun = s.overrun := by
  induction n generalizing s stream with
  | zero =>
    have hnil : stream = [] := List.eq_nil_of_length_eq_zero (Nat.le_zero.mp hn)
    exact ⟨[], rfl, by simp, hnil.symm, rfl⟩
  | succ n ih =>
    obtain ⟨us, stream', hfilled⟩ := filled_getpkt hroom le_rfl h
    have hover : (p.getpkt maxsiz maxsiz s).2.overrun = s.overrun := getpkt_fits h hfit
    rw [packets]
    by_cases hdata : (p.getpkt maxsiz maxsiz s).1 = []
    · have hus : us = [] := spells_eq_nil.mp (hfilled.data ▸ hdata)
      simp only [if_pos hdata]
      exact ⟨[], rfl, by simp, (hfilled.nonempty hus).symm, hover⟩
    · have hus : us ≠ [] := by
        rintro rfl
        exact hdata hfilled.data
      have hshorter : stream'.length ≤ n := by
        have hpos : 0 < us.length := List.length_pos_of_ne_nil hus
        have hle := length_le_runs hfilled.units
        have hsum : stream.length = (runs us).length + stream'.length := by
          rw [hfilled.order, List.length_append]
        omega
      have hrest : ¬ p.Wide stream' := by
        intro hwide
        refine hfit (hwide.mono ?_)
        rw [hfilled.order]
        exact (List.suffix_append _ _).isInfix
      obtain ⟨uss, hpackets, huss, hstream, hlast⟩ := ih hfilled.has hrest hshorter
      simp only [if_neg hdata]
      refine ⟨us :: uss, ?_, ?_, ?_, hlast.trans hover⟩
      · rw [List.map_cons, ← hpackets, ← hfilled.data]
      · rintro vs (_ | ⟨_, hvs⟩)
        · exact ⟨hus, hfilled.units, hfilled.data ▸ hfilled.length⟩
        · exact huss vs hvs
      · rw [List.flatMap_cons, hstream, hfilled.order]

/-- A file arrives as it was: every packet is decoded without an error, and together they give the
file.  No packet is empty, which would end the file, or longer than it may be.  This needs that
`remain` holds what is kept, which it does if there are no wide runs. -/
theorem sends_file (hp : p.Proper) (hq : q.Decodes p) {maxsiz : ℕ} (hroom : 6 < maxsiz)
    (c : Byte) (file : List Byte) (hfit : ¬ p.Wide file) :
    let sent := p.packets maxsiz file.length ⟨.start, c, [], false, file⟩
    sent.2.overrun = false ∧
      (∀ data ∈ sent.1, data ≠ [] ∧ data.length ≤ maxsiz ∧ (q.decode false data).2 = true) ∧
      sent.1.flatMap (fun data => (q.decode false data).1) = file := by
  obtain ⟨uss, hpackets, huss, hfile, hover⟩ := packets_units hroom
    (show Source.Has p ⟨.start, c, [], false, file⟩ file from rfl) hfit le_rfl
  intro sent
  refine ⟨hover, ?_, ?_⟩
  · show ∀ data ∈ (p.packets maxsiz file.length ⟨.start, c, [], false, file⟩).1, _
    rw [hpackets]
    intro data hdata
    obtain ⟨us, hus, rfl⟩ := List.mem_map.mp hdata
    obtain ⟨hne, hunits, hlength⟩ := huss us hus
    exact ⟨fun h => hne (spells_eq_nil.mp h), hlength, by rw [decode_spells hp hq hunits]⟩
  · show (p.packets maxsiz file.length ⟨.start, c, [], false, file⟩).1.flatMap _ = file
    rw [hpackets, List.flatMap_map]
    conv_rhs => rw [← hfile]
    refine List.flatMap_congr fun us hus => ?_
    rw [decode_spells hp hq (huss us hus).2.1, shown_binary (huss us hus).2.1]

/-- The prefixes that both sides use unless told otherwise, on a line with parity. -/
def usual : Coding where
  sctlq := 35
  rctlq := 35
  ebqflg := true
  ebq := 38
  rptflg := true
  rptq := 126

lemma proper_usual : usual.Proper where
  sctlq := by decide
  ebq := fun _ => by decide
  rptq := fun _ => by decide
  ebq_ne := fun _ => by decide
  rptq_ne := fun _ => by decide
  ebq_ne_rptq := fun _ _ => by decide

lemma decodes_usual : usual.Decodes usual := ⟨rfl, rfl, fun _ => rfl, rfl, fun _ => rfl⟩

/-- Only the characters of the stream need to be looked at. -/
lemma wide_iff {stream : List Byte} :
    p.Wide stream ↔
      p.rptflg = true ∧ ∃ a ∈ stream, [a, a] <:+: stream ∧ 3 ≤ (p.emit a).length := by
  constructor
  · rintro ⟨hflg, a, hpair, hlong⟩
    exact ⟨hflg, a, hpair.subset List.mem_cons_self, hpair, hlong⟩
  · rintro ⟨hflg, a, -, hpair, hlong⟩
    exact ⟨hflg, a, hpair, hlong⟩

instance (p : Coding) (stream : List Byte) : Decidable (p.Wide stream) :=
  decidable_of_iff' _ wide_iff

/-- A run, a control character with its eighth bit and a prefix, in packets of eight. -/
theorem sends_file_usual :
    (usual.packets 8 6 ⟨.start, 0, [], false, [7, 7, 7, 7, 141, 35]⟩).1.flatMap
      (fun data => (usual.decode false data).1) = [7, 7, 7, 7, 141, 35] :=
  (sends_file proper_usual decodes_usual (by decide) 0 [7, 7, 7, 7, 141, 35]
    (by decide +kernel)).2.2

-- six characters of a wide run are kept at the end of the first packet, and their NUL has no place
example : (usual.packets 8 9
    ⟨.start, 0, [], false, [97, 98, 99, 100, 101, 102, 255, 255, 65]⟩).2.overrun = true := by
  decide +kernel

end Coding

/-! ## Text files -/

/-- A file as it is read byte by byte; `none` is a read that fails. -/
abbrev File := List (Option Byte)

/-- `MAXRECORD`: the length of the input buffer. -/
def MAXRECORD : ℕ := 4080

/-- The input file and its buffer. -/
structure Reader where
  /-- From `zinptr` on, `zincnt` bytes. -/
  zinbuf : List Byte
  /-- What has not been read of the file. -/
  ifp : File

/-- How many bytes are read for the buffer. -/
def record (text : Bool) : ℕ := if text then MAXRECORD - 1 else MAXRECORD

/-- The bytes that `fread` reads, or `getc` in text mode up to a line feed, `n` at most.  A read that
fails looks as the end of the file does. -/
def readRecord (text : Bool) : ℕ → File → List Byte × File
  | 0, ifp => ([], ifp)
  | _, [] => ([], [])
  | _, none :: ifp => ([], ifp)
  | n + 1, some c :: ifp =>
    if text ∧ c = LF then ([c], ifp)
    else
      let (bytes, ifp) := readRecord text n ifp
      (c :: bytes, ifp)

/-- A text with carriage return and line feed at the ends of its lines. -/
def crlf (file : List Byte) : List Byte :=
  file.flatMap fun c => if c = LF then [CR, LF] else [c]

/-- Refill the input buffer, and return the first byte. -/
def zfillbuf (text : Bool) (r : Reader) : Option Byte × Reader :=
  let (bytes, ifp) := readRecord text (record text) r.ifp
  match if text then crlf bytes else bytes with
  | [] => (none, ⟨[], ifp⟩)
  | c :: zinbuf => (some c, ⟨zinbuf, ifp⟩)

def zgetc (text : Bool) (r : Reader) : Option Byte × Reader :=
  match r.zinbuf with
  | c :: zinbuf => (some c, { r with zinbuf })
  | [] => zfillbuf text r

/-- The bytes of a file up to the end that `zfillbuf` sees, when `n` bytes have been read for the
buffer: a read that fails is taken for the end if there are none. -/
def contents (text : Bool) : ℕ → File → List Byte
  | _, [] => []
  | n, none :: ifp => if n = 0 then [] else contents text 0 ifp
  | n, some c :: ifp =>
    c :: contents text (if (text ∧ c = LF) ∨ n + 1 = record text then 0 else n + 1) ifp

/-- What `zgetc` still has to give. -/
def Reader.input (text : Bool) (r : Reader) : List Byte :=
  r.zinbuf ++ if text then crlf (contents text 0 r.ifp) else contents text 0 r.ifp

lemma crlf_append (s t : List Byte) : crlf (s ++ t) = crlf s ++ crlf t := List.flatMap_append

lemma crlf_eq_nil {s : List Byte} : crlf s = [] ↔ s = [] := by
  cases s with
  | nil => simp [crlf]
  | cons c s =>
    have hne : crlf (c :: s) ≠ [] := by
      rw [crlf, List.flatMap_cons]
      split <;> simp
    simp [hne]

/-- What is read for the buffer comes first, and the rest after it. -/
lemma readRecord_contents {text : Bool} {m n : ℕ} (hn : m + (n + 1) = record text) (ifp : File) :
    contents text m ifp = (readRecord text (n + 1) ifp).1 ++
      if m = 0 ∧ (readRecord text (n + 1) ifp).1 = [] then []
      else contents text 0 (readRecord text (n + 1) ifp).2 := by
  induction ifp generalizing m n with
  | nil => simp [contents, readRecord]
  | cons x ifp ih =>
    cases x with
    | none => by_cases hm : m = 0 <;> simp [contents, readRecord, hm]
    | some c =>
      by_cases hline : text = true ∧ c = LF
      · simp [contents, readRecord, hline]
      · cases n with
        | zero =>
          have hfull : m + 1 = record text := hn
          simp [contents, readRecord, hline, hfull]
        | succ n =>
          have hfree : m + 1 ≠ record text := by omega
          have hrest := ih (m := m + 1) (n := n) (by omega)
          simp only [contents, readRecord, hline, hfree, or_self, if_false]
          rw [hrest]
          simp

/-- `zgetc` gives the file byte by byte up to its end, as text with carriage returns. -/
theorem zgetc_input (text : Bool) (r : Reader) :
    (zgetc text r).1 = (r.input text).head? ∧
      ((zgetc text r).1 ≠ none → (zgetc text r).2.input text = (r.input text).tail) := by
  obtain ⟨zinbuf, ifp⟩ := r
  cases zinbuf with
  | cons c zinbuf => exact ⟨rfl, fun _ => rfl⟩
  | nil =>
    obtain ⟨n, hn⟩ : ∃ n, record text = n + 1 := by
      cases text with
      | true => exact ⟨_, rfl⟩
      | false => exact ⟨_, rfl⟩
    obtain ⟨⟨bytes, rest⟩, hread⟩ : ∃ x, readRecord text (record text) ifp = x := ⟨_, rfl⟩
    have hcontents := @readRecord_contents text 0 n (by omega) ifp
    rw [← hn, hread] at hcontents
    simp only [zgetc, zfillbuf, hread]
    cases bytes with
    | nil =>
      have hempty : Reader.input text ⟨[], ifp⟩ = [] := by
        simp [Reader.input, hcontents, crlf]
      rw [hempty]
      simp [crlf]
    | cons c bytes =>
      have hinput : Reader.input text ⟨[], ifp⟩ = (if text then crlf (c :: bytes) else c :: bytes) ++
          if text then crlf (contents text 0 rest) else contents text 0 rest := by
        rw [Reader.input, hcontents]
        cases text
        · simp
        · exact crlf_append (c :: bytes) _
      obtain ⟨a, zinbuf, hbuffer⟩ : ∃ a zinbuf, (if text then crlf (c :: bytes) else c :: bytes) =
          a :: zinbuf := by
        refine List.exists_cons_of_ne_nil ?_
        split
        · exact fun h => absurd (crlf_eq_nil.mp h) (List.cons_ne_nil c bytes)
        · exact List.cons_ne_nil c bytes
      rw [hinput, hbuffer]
      exact ⟨rfl, fun _ => rfl⟩

/-- What is read of a file is the beginning of it. -/
theorem contents_isPrefix (text : Bool) (n : ℕ) (file : File) :
    contents text n file <+: file.reduceOption := by
  induction file generalizing n with
  | nil => exact List.prefix_refl []
  | cons x file ih =>
    cases x with
    | none =>
      rw [contents, List.reduceOption_cons_of_none]
      split
      · exact List.nil_prefix
      · exact ih 0
    | some c =>
      rw [contents, List.reduceOption_cons_of_some]
      exact (List.prefix_cons_inj c).mpr (ih _)

/-- A file is read as a whole if no read fails. -/
theorem contents_whole (text : Bool) (n : ℕ) {file : File} (h : none ∉ file) :
    contents text n file = file.reduceOption := by
  induction file generalizing n with
  | nil => rfl
  | cons x file ih =>
    cases x with
    | none => exact absurd List.mem_cons_self h
    | some c =>
      rw [contents, List.reduceOption_cons_of_some,
        ih _ fun hmem => h (List.mem_cons_of_mem _ hmem)]

/-- Without carriage returns of its own a text has no two of them side by side. -/
lemma crlf_no_double {file : List Byte} (h : CR ∉ file) : ¬ [CR, CR] <:+: crlf file := by
  induction file with
  | nil => simp [crlf]
  | cons c file ih =>
    have hrest := ih fun hmem => h (List.mem_cons_of_mem c hmem)
    have hc : CR ≠ c := fun heq => h (heq ▸ List.mem_cons_self)
    by_cases hlf : c = LF
    · have hcons : crlf (c :: file) = CR :: LF :: crlf file := by simp [crlf, hlf]
      rw [hcons, List.infix_cons_iff, List.infix_cons_iff]
      rintro (hpre | hpre | hinfix)
      · rw [List.cons_prefix_cons, List.cons_prefix_cons] at hpre
        exact absurd hpre.2.1 (by decide)
      · rw [List.cons_prefix_cons] at hpre
        exact absurd hpre.1 (by decide)
      · exact hrest hinfix
    · have hcons : crlf (c :: file) = c :: crlf file := by simp [crlf, hlf]
      rw [hcons, List.infix_cons_iff]
      rintro (hpre | hinfix)
      · rw [List.cons_prefix_cons] at hpre
        exact hc hpre.1
      · exact hrest hinfix

lemma filter_crlf {file : List Byte} (h : CR ∉ file) : (crlf file).filter (· ≠ CR) = file := by
  induction file with
  | nil => rfl
  | cons c file ih =>
    have hrest := ih fun hmem => h (List.mem_cons_of_mem c hmem)
    have hc : c ≠ CR := fun heq => h (heq ▸ List.mem_cons_self)
    by_cases hlf : c = LF
    · have hcons : crlf (c :: file) = CR :: LF :: crlf file := by simp [crlf, hlf]
      rw [hcons, List.filter_cons_of_neg (by simp), List.filter_cons_of_pos (by decide), hrest, hlf]
    · have hcons : crlf (c :: file) = c :: crlf file := by simp [crlf, hlf]
      rw [hcons, List.filter_cons_of_pos (by simpa using hc), hrest]

namespace Coding

/-- A carriage return is never written in text mode. -/
lemma not_mem_shown {rpt : ℤ} : CR ∉ shown true rpt us := by
  induction us generalizing rpt with
  | nil => simp [shown]
  | cons u us ih =>
    rw [shown]
    by_cases hu : u.2 = CR
    · rw [if_pos ⟨rfl, hu⟩]
      exact ih
    · rw [if_neg fun h => hu h.2]
      intro hmem
      rcases List.mem_append.mp hmem with hmem | hmem
      · exact hu (List.eq_of_mem_replicate hmem).symm
      · exact ih hmem

/-- Without two carriage returns side by side, text mode only takes the carriage returns away. -/
lemma shown_runs (hus : ∀ u ∈ us, p.IsUnit u) (hdouble : ¬ [CR, CR] <:+: runs us) :
    shown true 0 us = (runs us).filter (· ≠ CR) := by
  refine shown_text hus (fun u hu hcr => ?_) (.inl rfl)
  -- a carriage return with a count would be two of them side by side
  by_contra hone
  have htwo : 2 ≤ u.1 := by
    have := (hus u hu).1
    omega
  refine hdouble ?_
  have hpair : [CR, CR] <:+: List.replicate u.1 u.2 := by
    refine ⟨[], List.replicate (u.1 - 2) CR, ?_⟩
    have hsplit : List.replicate u.1 CR = List.replicate 2 CR ++ List.replicate (u.1 - 2) CR := by
      rw [← List.replicate_add, Nat.add_sub_cancel' htwo]
    rw [hcr, hsplit]
    rfl
  have hrun : List.replicate u.1 u.2 <:+: runs us := by
    obtain ⟨us₁, us₂, rfl⟩ := List.append_of_mem hu
    exact ⟨runs us₁, runs us₂, by simp⟩
  exact hpair.trans hrun

/-- Carriage returns before the line feeds make no wide run. -/
lemma wide_crlf {file : List Byte} (h : p.Wide (crlf file)) : p.Wide file := by
  obtain ⟨hflg, a, hpair, hlong⟩ := h
  refine ⟨hflg, a, ?_, hlong⟩
  have hhigh : a &&& 128 ≠ 0 := (high_of_emit hlong).2
  have hcr : a ≠ CR := fun hcr => hhigh (hcr ▸ by decide)
  have hlf : a ≠ LF := fun hlf => hhigh (hlf ▸ by decide)
  induction file with
  | nil => exact hpair
  | cons c file ih =>
    by_cases hc : c = LF
    · have hcons : crlf (c :: file) = CR :: LF :: crlf file := by simp [crlf, hc]
      rw [hcons, List.infix_cons_iff, List.infix_cons_iff] at hpair
      rcases hpair with hpre | hpre | hinfix
      · exact absurd (List.cons_prefix_cons.mp hpre).1 hcr
      · exact absurd (List.cons_prefix_cons.mp hpre).1 hlf
      · exact (ih hinfix).trans (List.suffix_cons c file).isInfix
    · have hcons : crlf (c :: file) = c :: crlf file := by simp [crlf, hc]
      rw [hcons, List.infix_cons_iff] at hpair
      rcases hpair with hpre | hinfix
      · obtain ⟨rfl, hnext⟩ := List.cons_prefix_cons.mp hpre
        cases file with
        | nil => exact absurd hnext (by simp [crlf])
        | cons d file =>
          by_cases hd : d = LF
          · have hcrlf : crlf (d :: file) = CR :: LF :: crlf file := by simp [crlf, hd]
            rw [hcrlf] at hnext
            exact absurd (List.cons_prefix_cons.mp hnext).1 hcr
          · have hcrlf : crlf (d :: file) = d :: crlf file := by simp [crlf, hd]
            rw [hcrlf] at hnext
            obtain ⟨rfl, -⟩ := List.cons_prefix_cons.mp hnext
            exact (List.prefix_append [a, a] file).isInfix
      · exact (ih hinfix).trans (List.suffix_cons c file).isInfix

/-- A text, as far as it can be read, arrives as it was exactly if it has no carriage returns. -/
theorem sends_text (hp : p.Proper) (hq : q.Decodes p) {maxsiz : ℕ} (hroom : 6 < maxsiz)
    (c : Byte) (file : File) (hfit : ¬ p.Wide (contents true 0 file)) :
    let input := Reader.input true ⟨[], file⟩
    let sent := p.packets maxsiz input.length ⟨.start, c, [], false, input⟩
    sent.2.overrun = false ∧
      (sent.1.flatMap (fun data => (q.decode true data).1) = contents true 0 file ↔
        CR ∉ contents true 0 file) := by
  obtain ⟨text, htext⟩ : ∃ text, contents true 0 file = text := ⟨_, rfl⟩
  rw [htext] at hfit ⊢
  have hinput : Reader.input true ⟨[], file⟩ = crlf text := by rw [← htext]; rfl
  rw [hinput]
  obtain ⟨uss, hpackets, huss, hfile, hover⟩ := packets_units hroom
    (show Source.Has p ⟨.start, c, [], false, crlf text⟩ (crlf text) from rfl)
    (fun hwide => hfit (wide_crlf hwide)) le_rfl
  have hdecode : (p.packets maxsiz (crlf text).length
      ⟨.start, c, [], false, crlf text⟩).1.flatMap (fun data => (q.decode true data).1) =
      uss.flatMap (shown true 0) := by
    rw [hpackets, List.flatMap_map]
    refine List.flatMap_congr fun us hus => ?_
    rw [decode_spells hp hq (huss us hus).2.1]
  intro input sent
  refine ⟨hover, ?_⟩
  show (p.packets maxsiz (crlf text).length ⟨.start, c, [], false, crlf text⟩).1.flatMap _ = text ↔ _
  rw [hdecode]
  constructor
  · intro hsame hmem
    rw [← hsame] at hmem
    obtain ⟨us, -, hshown⟩ := List.mem_flatMap.mp hmem
    exact not_mem_shown hshown
  · intro hfree
    have hunits : ∀ us ∈ uss, shown true 0 us = (runs us).filter (· ≠ CR) := by
      intro us hus
      refine shown_runs (huss us hus).2.1 fun hdouble => crlf_no_double hfree (hdouble.trans ?_)
      obtain ⟨uss₁, uss₂, rfl⟩ := List.append_of_mem hus
      rw [← hfile]
      exact ⟨uss₁.flatMap runs, uss₂.flatMap runs, by simp⟩
    rw [List.flatMap_congr hunits, ← List.filter_flatMap, hfile, filter_crlf hfree]

/-- Two lines of a text, of which the second cannot be read. -/
theorem sends_text_lines :
    (usual.packets 8 4 ⟨.start, 0, [], false, [72, 105, CR, LF]⟩).1.flatMap
      (fun data => (usual.decode true data).1) = [72, 105, LF] ↔ CR ∉ [72, 105, LF] :=
  (sends_text proper_usual decodes_usual (show 6 < 8 by decide) 0
    [some 72, some 105, some LF, none, some 33, some LF] (by decide +kernel)).2

end Coding

end EspLinux.Kermit
