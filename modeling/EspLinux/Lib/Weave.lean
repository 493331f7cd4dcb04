import Mathlib

/-!
# Frames of several sources on one line

Several sources send frames over one line, each in its own order.  What is on the line is marked
with its source.  The line is woven if it is made of whole frames, but for the last one, which may
be cut (`Woven`).  A sender that goes over to another source only when no frame is cut keeps it so
(`Weaves.send`), however few symbols the line takes at a time.
-/

namespace EspLinux.Lib

variable {τ α : Type*}

/-- A frame on the line. -/
def tagged (u : τ × List α) : List (τ × α) := u.2.map (u.1, ·)

variable [DecidableEq τ]

/-- The frames of one source. -/
def framesOf (i : τ) (us : List (τ × List α)) : List (List α) := (us.filter (·.1 = i)).map Prod.snd

/-- The line is made of whole frames, those of each source in their order, but for the end of the
last one. -/
def Woven (frames : τ → List (List α)) (net : List (τ × α)) : Prop :=
  ∃ us, net <+: us.flatMap tagged ∧ ∀ i, framesOf i us <+: frames i

/-- No frame is cut: what is left to be sent is made of whole frames. -/
def Whole (frames : List (List α)) (rest : List α) : Prop := ∃ k, rest = (frames.drop k).flatten

/-- What is on the line and what is left to be sent, when the source `i` has sent last, whole frames
and then `part` of the next one. -/
structure WeavesBy (frames : τ → List (List α)) (net : List (τ × α)) (rest : τ → List α) (i : τ)
    (us : List (τ × List α)) (part : List α) (todo : τ → List (List α)) : Prop where
  net : net = us.flatMap tagged ++ tagged (i, part)
  frames : ∀ j, frames j = framesOf j us ++ todo j
  head : part <+: (todo i).headD []
  rest : ∀ j, (if j = i then part else []) ++ rest j = (todo j).flatten

/-- What is on the line and what is left to be sent. -/
def Weaves (frames : τ → List (List α)) (net : List (τ × α)) (rest : τ → List α) : Prop :=
  ∃ i us part todo, WeavesBy frames net rest i us part todo

variable {frames frames' : τ → List (List α)} {net : List (τ × α)} {rest rest' : τ → List α}
  {i j : τ} {us us' : List (τ × List α)} {part l : List α} {todo : τ → List (List α)}

/-! ## Frames -/

omit [DecidableEq τ] in
lemma tagged_append (l l' : List α) : tagged (i, l ++ l') = tagged (i, l) ++ tagged (i, l') :=
  List.map_append

omit [DecidableEq τ] in
@[simp] lemma tagged_nil : tagged (i, ([] : List α)) = [] := rfl

lemma framesOf_append : framesOf i (us ++ us') = framesOf i us ++ framesOf i us' := by
  rw [framesOf, List.filter_append, List.map_append]
  rfl

/-- The frames `fs` from the source `i`. -/
lemma framesOf_map (fs : List (List α)) :
    framesOf j (fs.map (i, ·)) = if j = i then fs else [] := by
  rw [framesOf, List.filter_map, List.map_map]
  split
  · rename_i hij
    subst hij
    rw [List.filter_eq_self.mpr fun _ _ => by simp]
    exact List.map_id fs
  · rename_i hij
    rw [List.filter_eq_nil_iff.mpr fun _ _ => by simpa using Ne.symm hij]
    rfl

omit [DecidableEq τ] in
lemma flatMap_tagged_map (fs : List (List α)) :
    (fs.map (i, ·)).flatMap tagged = tagged (i, fs.flatten) := by
  induction fs with
  | nil => rfl
  | cons f fs ih =>
    rw [List.map_cons, List.flatMap_cons, ih, List.flatten_cons, tagged_append]

/-- The start of some frames is made of whole frames and of the start of the next one. -/
lemma exists_of_prefix_flatten {fs : List (List α)} (h : l <+: fs.flatten) :
    ∃ k part, l = (fs.take k).flatten ++ part ∧ part <+: (fs.drop k).headD [] := by
  induction fs generalizing l with
  | nil => exact ⟨0, [], List.prefix_nil.mp h, List.nil_prefix⟩
  | cons f fs ih =>
    rw [List.flatten_cons] at h
    rcases List.prefix_or_prefix_of_prefix h (List.prefix_append f fs.flatten) with hl | ⟨l', rfl⟩
    · exact ⟨0, l, rfl, hl⟩
    · obtain ⟨k, part, hl, hpart⟩ := ih ((List.prefix_append_right_inj f).mp h)
      exact ⟨k + 1, part, by rw [hl, List.take_succ_cons, List.flatten_cons, List.append_assoc], hpart⟩

/-- A frame of which some is left is cut. -/
lemma not_whole_of_cut {fs : List (List α)} {r : List α} (hpart : part ≠ []) (hr : r ≠ []) :
    ¬ Whole (framesOf i us ++ (part ++ r) :: fs) (r ++ fs.flatten) := by
  rintro ⟨k, hk⟩
  have hpart := List.length_pos_iff.mpr hpart
  have hr := List.length_pos_iff.mpr hr
  have hlen := congrArg List.length hk
  rw [List.drop_append, List.flatten_append, List.length_append, List.length_append] at hlen
  rcases hn : k - (framesOf i us).length with _ | n
  · rw [hn, List.drop_zero, List.flatten_cons, List.length_append, List.length_append] at hlen
    omega
  · have hdrop : ((fs.drop n).flatten).length ≤ fs.flatten.length := by
      have hsplit := congrArg (List.length ∘ List.flatten) (List.take_append_drop n fs)
      simp only [Function.comp_apply, List.flatten_append, List.length_append] at hsplit
      omega
    have hdone : (List.drop k (framesOf i us)).flatten = [] := by
      rw [List.drop_eq_nil_of_le (by omega)]
      rfl
    rw [hn, List.drop_succ_cons, hdone, List.length_nil] at hlen
    omega

/-! ## What is on the line -/

namespace WeavesBy

lemma woven (h : WeavesBy frames net rest i us part todo) : Woven frames net := by
  rcases htodo : todo i with _ | ⟨f, fs⟩
  · have hpart : part = [] := by simpa [htodo] using h.head
    refine ⟨us, ?_, fun j => ⟨todo j, (h.frames j).symm⟩⟩
    rw [h.net, hpart, tagged_nil, List.append_nil]
  · refine ⟨us ++ [(i, f)], ?_, fun j => ?_⟩
    · have hhead : part <+: f := by simpa [htodo] using h.head
      rw [h.net, List.flatMap_append]
      refine (List.prefix_append_right_inj _).mpr ?_
      rw [List.flatMap_singleton]
      exact hhead.map _
    · have hone : framesOf j [(i, f)] = if j = i then [f] else [] := framesOf_map [f]
      rw [framesOf_append, hone, h.frames j]
      refine (List.prefix_append_right_inj _).mpr ?_
      split
      · rename_i hj
        rw [hj, htodo]
        exact List.prefix_append [f] fs
      · exact List.nil_prefix

/-- Between frames any source may be the next. -/
lemma change (h : WeavesBy frames net rest i us [] todo) (j : τ) :
    WeavesBy frames net rest j us [] todo := by
  refine ⟨h.net, h.frames, List.nil_prefix, fun k => ?_⟩
  have := h.rest k
  simpa only [ite_self, List.nil_append] using this

/-- A frame that is all sent. -/
lemma done {f : List α} {fs : List (List α)} (h : WeavesBy frames net rest i us f todo)
    (htodo : todo i = f :: fs) :
    WeavesBy frames net rest i (us ++ [(i, f)]) [] (Function.update todo i fs) := by
  have hone (j : τ) : framesOf j [(i, f)] = if j = i then [f] else [] := framesOf_map [f]
  refine ⟨?_, fun j => ?_, List.nil_prefix, fun j => ?_⟩
  · rw [h.net, List.flatMap_append, List.flatMap_singleton, tagged_nil, List.append_nil]
  · rw [framesOf_append, hone, h.frames j, List.append_assoc]
    by_cases hj : j = i
    · subst hj
      rw [if_pos rfl, Function.update_self, htodo]
      rfl
    · rw [if_neg hj, Function.update_of_ne hj]
      rfl
  · have hrest := h.rest j
    by_cases hj : j = i
    · subst hj
      rw [if_pos rfl, htodo, List.flatten_cons, List.append_cancel_left_eq] at hrest
      rw [if_pos rfl, Function.update_self, hrest]
      rfl
    · rw [if_neg hj] at hrest ⊢
      rw [Function.update_of_ne hj, hrest]

end WeavesBy

namespace Weaves

lemma woven (h : Weaves frames net rest) : Woven frames net := by
  obtain ⟨i, us, part, todo, h⟩ := h
  exact h.woven

/-- Nothing has been sent. -/
lemma start (hrest : ∀ i, rest i = (frames i).flatten) (i : τ) : Weaves frames [] rest := by
  refine ⟨i, [], [], frames, rfl, fun _ => rfl, List.nil_prefix, fun j => ?_⟩
  rw [ite_self, hrest j]
  rfl

/-- When no frame of another source is cut, a source may go on. -/
lemma owner (h : Weaves frames net rest) (hw : ∀ j, j ≠ i → Whole (frames j) (rest j)) :
    ∃ us part todo, WeavesBy frames net rest i us part todo := by
  obtain ⟨j, us, part, todo, h⟩ := h
  by_cases hj : j = i
  · subst hj
    exact ⟨us, part, todo, h⟩
  by_cases hpart : part = []
  · subst hpart
    exact ⟨us, [], todo, h.change i⟩
  · rcases htodo : todo j with _ | ⟨f, fs⟩
    · exact absurd (by simpa [htodo] using h.head) hpart
    obtain ⟨r, hr⟩ : part <+: f := by simpa [htodo] using h.head
    have hrest := h.rest j
    rw [if_pos rfl, htodo, List.flatten_cons, ← hr, List.append_assoc,
      List.append_cancel_left_eq] at hrest
    have hwhole := hw j hj
    rw [hrest, h.frames j, htodo, ← hr] at hwhole
    by_cases hnil : r = []
    · rw [hnil, List.append_nil] at hr
      subst hr
      exact ⟨_, _, _, (h.done htodo).change i⟩
    · exact absurd hwhole (not_whole_of_cut hpart hnil)

/-- The line takes some symbols of a source. -/
theorem send (h : Weaves frames net rest)
    (hw : l ≠ [] → ∀ j, j ≠ i → Whole (frames j) (rest j))
    (hrest : rest i = l ++ rest' i) (hothers : ∀ j, j ≠ i → rest' j = rest j) :
    Weaves frames (net ++ tagged (i, l)) rest' := by
  by_cases hl : l = []
  · have hsame : rest' = rest := by
      funext j
      by_cases hj : j = i
      · rw [hj, hrest, hl]
        rfl
      · exact hothers j hj
    rw [hl, hsame, tagged_nil, List.append_nil]
    exact h
  obtain ⟨us, part, todo, h⟩ := h.owner (hw hl)
  have hleft := h.rest i
  rw [if_pos rfl, hrest, ← List.append_assoc] at hleft
  obtain ⟨k, part', hsent, hhead⟩ := exists_of_prefix_flatten (l := part ++ l) ⟨rest' i, hleft⟩
  refine ⟨i, us ++ ((todo i).take k).map (i, ·), part', Function.update todo i ((todo i).drop k),
    ?_, fun j => ?_, ?_, fun j => ?_⟩
  · rw [h.net, List.append_assoc, ← tagged_append, hsent, List.flatMap_append, flatMap_tagged_map,
      tagged_append, List.append_assoc]
  · rw [framesOf_append, framesOf_map, h.frames j]
    by_cases hj : j = i
    · subst hj
      rw [if_pos rfl, Function.update_self, List.append_assoc, List.take_append_drop]
    · rw [if_neg hj, Function.update_of_ne hj, List.append_nil]
  · rw [Function.update_self]
    exact hhead
  · by_cases hj : j = i
    · subst hj
      rw [if_pos rfl, Function.update_self]
      rw [hsent, List.append_assoc] at hleft
      have hsplit := congrArg List.flatten (List.take_append_drop k (todo j))
      rw [List.flatten_append, ← hleft, List.append_cancel_left_eq] at hsplit
      exact hsplit.symm
    · have := h.rest j
      rw [if_neg hj] at this ⊢
      rw [Function.update_of_ne hj, hothers j hj]
      exact this

/-- A source has more to send. -/
theorem append (fs : List (List α)) (h : Weaves frames net rest) (hframes : frames' i = frames i ++ fs)
    (hrest : rest' i = rest i ++ fs.flatten) (hframes' : ∀ j, j ≠ i → frames' j = frames j)
    (hothers : ∀ j, j ≠ i → rest' j = rest j) : Weaves frames' net rest' := by
  obtain ⟨m, us, part, todo, h⟩ := h
  refine ⟨m, us, part, Function.update todo i (todo i ++ fs), h.net, fun j => ?_, ?_, fun j => ?_⟩
  · by_cases hj : j = i
    · subst hj
      rw [hframes, h.frames j, Function.update_self, List.append_assoc]
    · rw [hframes' j hj, h.frames j, Function.update_of_ne hj]
  · have hhead := h.head
    by_cases hm : m = i
    · subst hm
      rw [Function.update_self]
      cases htodo : todo m with
      | nil =>
        have hpart : part = [] := by simpa [htodo] using hhead
        rw [hpart]
        exact List.nil_prefix
      | cons f l => simpa [htodo] using hhead
    · rw [Function.update_of_ne hm]
      exact hhead
  · by_cases hj : j = i
    · subst hj
      rw [hrest, Function.update_self, List.flatten_append, ← h.rest j, List.append_assoc]
    · rw [hothers j hj, Function.update_of_ne hj]
      exact h.rest j

end Weaves

/-! ## Where a frame is cut -/

/-- The symbols of one source. -/
def symbolsOf (i : τ) (net : List (τ × α)) : List α := (net.filter (·.1 = i)).map Prod.snd

lemma symbolsOf_append {net' : List (τ × α)} :
    symbolsOf i (net ++ net') = symbolsOf i net ++ symbolsOf i net' := by
  rw [symbolsOf, List.filter_append, List.map_append]
  rfl

lemma symbolsOf_tagged (u : τ × List α) : symbolsOf i (tagged u) = if u.1 = i then u.2 else [] := by
  obtain ⟨k, f⟩ := u
  rw [symbolsOf, tagged, List.filter_map, List.map_map]
  split
  · rename_i hk
    have hk : k = i := hk
    rw [List.filter_eq_self.mpr fun _ _ => by simpa using hk]
    exact List.map_id f
  · rename_i hk
    rw [List.filter_eq_nil_iff.mpr fun _ _ => by simpa using hk]
    rfl

/-- Where the source changes, the frames of the one that stops are whole. -/
lemma whole_of_change {a b : α} (hij : i ≠ j) (h : net ++ [(i, a), (j, b)] <+: us.flatMap tagged) :
    ∃ k, symbolsOf i (net ++ [(i, a)]) = ((framesOf i us).take k).flatten := by
  induction us generalizing net with
  | nil => exact absurd (List.prefix_nil.mp h) (by simp)
  | cons u us ih =>
    have hsplit : net ++ [(i, a), (j, b)] = (net ++ [(i, a)]) ++ [(j, b)] := by simp
    rw [List.flatMap_cons] at h
    have hfirst : net ++ [(i, a)] <+: tagged u ++ us.flatMap tagged := by
      rw [hsplit] at h
      exact (List.prefix_append _ _).trans h
    have hframe : framesOf i (u :: us) = (if u.1 = i then [u.2] else []) ++ framesOf i us := by
      rw [framesOf, List.filter_cons]
      by_cases hu : u.1 = i <;> simp [hu, framesOf]
    have hone (hl : net ++ [(i, a)] = tagged u) :
        ∃ k, symbolsOf i (net ++ [(i, a)]) = ((framesOf i (u :: us)).take k).flatten := by
      have hui : u.1 = i := by
        have hmem : (i, a) ∈ tagged u := hl ▸ List.mem_append_right _ (List.mem_singleton_self _)
        obtain ⟨_, -, heq⟩ := List.mem_map.mp hmem
        exact congrArg Prod.fst heq
      refine ⟨1, ?_⟩
      rw [hl, symbolsOf_tagged, hframe, if_pos hui, if_pos hui]
      simp
    rcases List.prefix_or_prefix_of_prefix hfirst (List.prefix_append _ _) with hu | ⟨l, hl⟩
    · -- the frame of `u` is not over before the change
      obtain ⟨l, hl⟩ := hu
      cases l with
      | nil => exact hone ((List.append_nil _).symm.trans hl)
      | cons y l =>
        rw [hsplit, ← hl, List.append_assoc (net ++ [(i, a)]) (y :: l),
          List.prefix_append_right_inj] at h
        have hy : (j, b) = y := (List.cons_prefix_cons.mp h).1
        have hi : (i, a) ∈ tagged u := by
          rw [← hl]
          simp
        have hj : (j, b) ∈ tagged u := by
          rw [← hl, hy]
          simp
        obtain ⟨_, -, hi⟩ := List.mem_map.mp hi
        obtain ⟨_, -, hj⟩ := List.mem_map.mp hj
        have hui : u.1 = i := congrArg Prod.fst hi
        have huj : u.1 = j := congrArg Prod.fst hj
        exact absurd (hui.symm.trans huj) hij
    · rcases List.eq_nil_or_concat' l with rfl | ⟨l, y, rfl⟩
      · exact hone (hl.symm.trans (List.append_nil _))
      · rw [← List.append_assoc] at hl
        obtain ⟨hnet, hy⟩ := List.append_inj' hl rfl
        cases hy
        rw [← hnet, List.append_assoc, List.prefix_append_right_inj] at h
        obtain ⟨k, hk⟩ := ih h
        by_cases hui : u.1 = i
        · refine ⟨k + 1, ?_⟩
          rw [← hnet, List.append_assoc, symbolsOf_append, hk, symbolsOf_tagged, if_pos hui, hframe,
            if_pos hui]
          simp
        · refine ⟨k, ?_⟩
          rw [← hnet, List.append_assoc, symbolsOf_append, hk, symbolsOf_tagged, if_neg hui, hframe,
            if_neg hui]
          rfl

/-- A line on which a source stops within a frame is not woven. -/
theorem not_woven {a b : α} {net' : List (τ × α)} (hij : i ≠ j)
    (hcut : ∀ k, symbolsOf i (net ++ [(i, a)]) ≠ ((frames i).take k).flatten) :
    ¬ Woven frames (net ++ (i, a) :: (j, b) :: net') := by
  rintro ⟨us, hnet, hframes⟩
  have hpre : net ++ [(i, a), (j, b)] <+: us.flatMap tagged := by
    refine List.IsPrefix.trans ⟨net', ?_⟩ hnet
    simp
  obtain ⟨k, hk⟩ := whole_of_change hij hpre
  obtain ⟨m, hm⟩ : ∃ m, (framesOf i us).take k = (frames i).take m := by
    have htake := ((List.take_prefix k (framesOf i us)).trans (hframes i))
    exact ⟨_, List.prefix_iff_eq_take.mp htake⟩
  exact hcut m (hk.trans (congrArg List.flatten hm))

end EspLinux.Lib
