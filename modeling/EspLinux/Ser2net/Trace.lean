import EspLinux.Lib.Run
import EspLinux.Ser2net.Descriptors

/-!
# Monitors and traces of the device

`handle_dev_fd_read` shows what it has read to the controller that monitors the device and writes it
to the trace files.  It reads behind what is already in `dev_to_tcp_buf`, but shows as many bytes
from the beginning of the buffer.  So the monitor and the files get what has been read if nothing
waits in the buffer when it is read, or if what waits and what is read happen to begin with the
same bytes (`ReadsAlone`).  However `write` cuts up what goes to a file, nothing else is lost
(`monitored_reads`).
-/

namespace EspLinux.Ser2net

open EspLinux.Lib

/-! ## The model -/

/-- The loop of `do_trace`: what is written to the file, and whether the file stays open. -/
def do_trace : List Wrote → List UInt8 → Option (List UInt8 × Bool)
  | _, [] => some ([], true)
  | [], _ :: _ => none
  | .EINTR :: ws, buf => do_trace ws buf
  | .accepted n :: ws, buf => (do_trace ws (buf.drop n)).map fun (out, ok) => (buf.take n ++ out, ok)
  | .EAGAIN :: _, _ => some ([], false)
  | .EPIPE :: _, _ => some ([], false)
  | .error :: _, _ => some ([], false)

/-- One that is shown what is read from the device. -/
structure Sink where
  /-- What it has been given. -/
  got : List UInt8
  /-- What the reads have returned that it was there for. -/
  due : List UInt8
  /-- A write has failed, and what it should have written is incomplete. -/
  failed : Bool

namespace Sink

/-- Nothing has been read yet. -/
def empty : Sink := ⟨[], [], false⟩

/-- It is given `data` after a read that has returned `raw`. -/
def add (data raw : List UInt8) (ok : Bool) (k : Sink) : Sink :=
  { got := k.got ++ data, due := k.due ++ raw, failed := k.failed || !ok }

/-- It has been given what has been read, unless a write has failed. -/
def Faithful (k : Sink) : Prop := k.failed = false → k.got = k.due

end Sink

/-- The part of a port that moves data from the device, with those that watch it. -/
structure Traced where
  xfer : Xfer
  /-- `dev_monitor` is set. -/
  dev_monitor : Bool
  files : Traces
  monitor : Sink
  rt : Sink
  bt : Sink

namespace Traced

/-- `do_trace` for a file that may be -1. -/
def trace (file : Option ℕ) (ws : List Wrote) (data raw : List UInt8) (t : Traces) (k : Sink) :
    Option (Traces × Sink) :=
  if file = none then some (t, k)
  else (do_trace ws data).map fun (out, ok) => (if ok then t else t.forget file, k.add out raw ok)

/-- What `handle_dev_fd_read` shows of a read that has returned `raw`. -/
def show_read (rt_ws bt_ws : List Wrote) (data raw : List UInt8) (s : Traced) : Option Traced := do
  let monitor := if s.dev_monitor then s.monitor.add data raw true else s.monitor
  let (files, rt) ← trace s.files.rt_file rt_ws data raw s.files s.rt
  let (files, bt) ← trace files.bt_file bt_ws data raw files s.bt
  some { s with files := files, monitor := monitor, rt := rt, bt := bt }

/-- The transfer goes on.  `shutdown_port` closes the trace files. -/
def move (x : Xfer) (s : Traced) : Traced :=
  { s with
    xfer := x
    files := if x.dev_to_tcp_state = .unconnected then .init else s.files }

/-- `handle_dev_fd_read`, with what `write` returns for the trace files. -/
def handle_dev_fd_read (p : Settings) (avail : Option (List UInt8)) (ws rt_ws bt_ws : List Wrote)
    (s : Traced) : Option Traced :=
  match avail.bind fun avail => s.xfer.dev_read p avail with
  | some (b :: l) => do
    let buf := put s.xfer.dev_to_tcp_buf s.xfer.dev_to_tcp_buf_count (b :: l)
    let s ← s.show_read rt_ws bt_ws (slice buf 0 (b :: l).length) (b :: l)
    let x ← s.xfer.handle_dev_fd_read p avail ws
    some (s.move x)
  | _ => (s.xfer.handle_dev_fd_read p avail ws).map fun x => s.move x

end Traced

/-- What happens to a port and those that watch it. -/
inductive TraceEvent
  /-- An event of the transfer, with what `write` returns for the trace files. -/
  | transfer (p : Settings) (e : Event) (rt_ws bt_ws : List Wrote)
  /-- The traces of what is read from the network. -/
  | trace_tcp (r : TraceInput)
  /-- A controller starts or stops to monitor the device. -/
  | monitor (on : Bool)
  /-- `setup_net_port2` -/
  | setup (p : Settings) (banner out_telnet_cmd : List UInt8) (f : TraceFiles)
  /-- `shutdown_port`, for another reason than what the transfer meets. -/
  | shutdown

namespace Traced

/-- One event. -/
def step (s : Traced) : TraceEvent → Option Traced
  | .transfer p (.dev_read avail ws) rt_ws bt_ws =>
    if s.xfer.reader then s.handle_dev_fd_read p avail ws rt_ws bt_ws else some s
  | .transfer p e _ _ => (s.xfer.step p e).map fun x => s.move x
  | .trace_tcp r => some { s with files := (s.files.trace_tcp r).1 }
  | .monitor on => some { s with dev_monitor := on }
  | .setup p banner cmd f =>
    some (if s.xfer.dev_to_tcp_state = .unconnected then
      { s with
        xfer := .opened p banner s.xfer.dev_to_tcp_buf s.xfer.front s.xfer.age cmd
        files := (Traces.setup_trace f).1
        rt := .empty
        bt := .empty }
    else s)
  | .shutdown => some (s.move s.xfer.shutdown)

/-- A port that has not been connected yet. -/
def init : Traced :=
  { xfer := .idle
    dev_monitor := false
    files := .init
    monitor := .empty
    rt := .empty
    bt := .empty }

/-- Somebody watches the device. -/
def Watched (s : Traced) : Prop :=
  s.dev_monitor = true ∨ s.files.rt_file ≠ none ∨ s.files.bt_file ≠ none

/-- The condition on a step: what is read while somebody watches is also what the buffer then
begins with, as it does when nothing has waited in it. -/
def ReadsAlone (s : Traced) : TraceEvent → Prop
  | .transfer p (.dev_read avail _) _ _ =>
    ∀ raw, s.xfer.reader = true → s.Watched →
      avail.bind (fun avail => s.xfer.dev_read p avail) = some raw →
      (slice s.xfer.dev_to_tcp_buf 0 s.xfer.dev_to_tcp_buf_count ++ raw).take raw.length = raw
  | _ => True

/-- The monitor and the trace files have been given what has been read. -/
structure Reports (s : Traced) : Prop where
  monitor : s.monitor.got = s.monitor.due
  rt : s.rt.Faithful
  bt : s.bt.Faithful

/-- A file that is open has been there for everything that has been read in the session. -/
def Follows (received : List UInt8) (file : Option ℕ) (k : Sink) : Prop :=
  file ≠ none → k.failed = false ∧ k.due = received

/-- What holds of the files: they are open during a session only, from its beginning on. -/
structure Opens (s : Traced) : Prop where
  rt : Follows s.xfer.received s.files.rt_file s.rt
  bt : Follows s.xfer.received s.files.bt_file s.bt

/-! ## The files -/

variable {s s' : Traced} {p : Settings} {e : TraceEvent} {ws rt_ws bt_ws : List Wrote}
  {buf data raw out : List UInt8} {file : Option ℕ} {t t' : Traces} {k k' : Sink} {ok : Bool}

/-- Whatever `write` takes at a time, a file that stays open gets everything. -/
lemma eq_of_do_trace (h : do_trace ws buf = some (out, true)) : out = buf := by
  induction ws generalizing buf out with
  | nil =>
    cases buf with
    | nil =>
      cases h
      rfl
    | cons b l => cases h
  | cons w ws ih =>
    cases buf with
    | nil =>
      cases h
      rfl
    | cons b l =>
      cases w with
      | EINTR => exact ih h
      | accepted n =>
        obtain ⟨⟨rest, ok⟩, hrest, heq⟩ := Option.map_eq_some_iff.mp h
        cases heq
        rw [ih hrest, List.take_append_drop]
      | EAGAIN => cases h
      | EPIPE => cases h
      | error => cases h

/-- What a file that has been open is given. -/
lemma trace_spec (h : trace file ws data raw t k = some (t', k')) :
    (file = none ∧ k' = k) ∨ k'.failed = true ∨ file ≠ none ∧ k' = k.add data raw true := by
  rw [trace] at h
  split at h
  · rename_i hfile
    cases h
    exact Or.inl ⟨hfile, rfl⟩
  · rename_i hfile
    obtain ⟨⟨out, ok⟩, hout, heq⟩ := Option.map_eq_some_iff.mp h
    cases heq
    cases ok with
    | false => exact Or.inr (Or.inl (by rw [Sink.add, Bool.not_false, Bool.or_true]))
    | true =>
      rw [eq_of_do_trace hout]
      exact Or.inr (Or.inr ⟨hfile, rfl⟩)

/-- A file is given what has been read if that is what it is shown. -/
lemma trace_faithful (h : trace file ws data raw t k = some (t', k')) (hk : k.Faithful)
    (hdata : file ≠ none → data = raw) : k'.Faithful := by
  rcases trace_spec h with ⟨-, rfl⟩ | hfailed | ⟨hfile, rfl⟩
  · exact hk
  · exact fun hok => absurd (hfailed.symm.trans hok) (by decide)
  · intro hok
    rw [Sink.add, Bool.not_true, Bool.or_false] at hok
    rw [Sink.add, hk hok, hdata hfile]

/-- And only then. -/
lemma eq_of_trace_faithful (h : trace file ws data raw t k = some (t', k')) (hk : k.Faithful)
    (hk' : k'.Faithful) (hfile : file ≠ none) (hok : k'.failed = false) : data = raw := by
  rcases trace_spec h with ⟨hnone, -⟩ | hfailed | ⟨-, rfl⟩
  · exact absurd hnone hfile
  · exact absurd (hfailed.symm.trans hok) (by decide)
  · have heq := hk' hok
    rw [Sink.add, Bool.not_true, Bool.or_false] at hok
    rw [Sink.add, hk hok] at heq
    exact List.append_cancel_left heq

/-- What is shown of a read. -/
lemma slice_put_take {m : ℕ → UInt8} {n : ℕ} :
    slice (put m n raw) 0 raw.length = (slice m 0 n ++ raw).take raw.length := by
  rw [← slice_put_append, Nat.zero_add, take_slice (Nat.le_add_left _ _)]

/-! ## The transfer -/

end Traced

namespace Xfer

variable {p : Settings} {x x' : Xfer} {ws : List Wrote} {e : Event} {raw : List UInt8}

lemma tryNetWrite_received (h : tryNetWrite ws x = some x') : x'.received = x.received := by
  induction ws with
  | nil => cases h
  | cons w ws ih =>
    cases w with
    | EINTR => exact ih h
    | EAGAIN =>
      cases h
      rfl
    | EPIPE =>
      cases h
      rfl
    | error =>
      cases h
      rfl
    | accepted n =>
      simp only [tryNetWrite] at h
      split at h
      all_goals
        cases h
        rfl

lemma store_received (h : x.store p raw = some x') : x'.received = x.received ++ raw := by
  simp only [store] at h
  split at h
  · obtain ⟨r, -, heq⟩ := Option.bind_eq_some_iff.mp h
    cases heq
    rfl
  · cases h
    rfl

/-- `received` is what the reads of the device have returned. -/
lemma handle_dev_fd_read_received {avail : Option (List UInt8)} {b : UInt8} {l : List UInt8}
    (hraw : (avail.bind fun avail => x.dev_read p avail) = some (b :: l))
    (h : x.handle_dev_fd_read p avail ws = some x') : x'.received = x.received ++ b :: l := by
  rw [handle_dev_fd_read, hraw] at h
  obtain ⟨y, hy, h⟩ := Option.bind_eq_some_iff.mp h
  rw [← store_received hy]
  split at h
  · cases h
    rfl
  · have hnet := tryNetWrite_received h
    exact hnet

lemma write_data_received {w : Wrote} : (x.write_data w).received = x.received := by
  cases w with
  | accepted n =>
    simp only [write_data]
    split <;> rfl
  | _ => rfl

lemma handle_tcp_fd_write_received {w₁ w₂ : Wrote} :
    (x.handle_tcp_fd_write w₁ w₂).received = x.received := by
  simp only [handle_tcp_fd_write]
  split
  · exact write_data_received
  · cases w₁ with
    | EAGAIN => exact write_data_received
    | accepted n =>
      simp only
      split
      · exact write_data_received
      · rfl
    | _ => rfl

/-- Nothing but a read of the device adds to `received`. -/
lemma step_received (he : ∀ avail ws, e ≠ .dev_read avail ws) (h : x.step p e = some x') :
    x'.received = x.received := by
  cases e with
  | dev_read avail ws => exact absurd rfl (he avail ws)
  | aged ws =>
    rw [step] at h
    split at h
    · have hnet := tryNetWrite_received h
      exact hnet
    · cases h
      rfl
  | tcp_write w₁ w₂ =>
    rw [step] at h
    split at h
    · cases h
      exact handle_tcp_fd_write_received
    · cases h
      rfl
  | telnet_output cmd =>
    rw [step] at h
    split at h <;> cases h <;> rfl

end Xfer

namespace Traced

variable {s s' : Traced} {p : Settings} {e : TraceEvent} {ws rt_ws bt_ws : List Wrote}
  {data raw : List UInt8} {file : Option ℕ} {t t' : Traces} {k k' : Sink} {x : Xfer}
  {avail : Option (List UInt8)} {b : UInt8} {l : List UInt8}

/-! ## What a read shows -/

lemma forget_rt_file (h : (t.forget file).rt_file ≠ none) : t.rt_file ≠ none := by
  intro hnone
  rw [Traces.forget] at h
  simp only [hnone, ite_self, ne_eq, not_true_eq_false] at h

lemma forget_bt_file (h : (t.forget file).bt_file ≠ none) : t.bt_file ≠ none := by
  intro hnone
  rw [Traces.forget] at h
  simp only [hnone, ite_self, ne_eq, not_true_eq_false] at h

/-- The files after a trace, and what the traced one has been given if it is open. -/
lemma trace_files (h : trace file ws data raw t k = some (t', k')) :
    (t' = t ∧ (file ≠ none → ∃ out, k' = k.add out raw true)) ∨
      file ≠ none ∧ k'.failed = true ∧ t' = t.forget file := by
  rw [trace] at h
  split at h
  · rename_i hfile
    cases h
    exact Or.inl ⟨rfl, fun h => absurd hfile h⟩
  · rename_i hfile
    obtain ⟨⟨out, ok⟩, -, heq⟩ := Option.map_eq_some_iff.mp h
    cases heq
    cases ok
    · exact Or.inr ⟨hfile, by rw [Sink.add, Bool.not_false, Bool.or_true], rfl⟩
    · exact Or.inl ⟨rfl, fun _ => ⟨out, rfl⟩⟩

/-- The parts of `show_read`. -/
lemma show_read_spec (h : s.show_read rt_ws bt_ws data raw = some s') :
    ∃ t, trace s.files.rt_file rt_ws data raw s.files s.rt = some (t, s'.rt) ∧
      trace t.bt_file bt_ws data raw t s.bt = some (s'.files, s'.bt) ∧
      s'.monitor = (if s.dev_monitor then s.monitor.add data raw true else s.monitor) ∧
      s'.xfer = s.xfer := by
  obtain ⟨⟨t, rt⟩, hrt, h⟩ := Option.bind_eq_some_iff.mp h
  obtain ⟨⟨t', bt⟩, hbt, h⟩ := Option.bind_eq_some_iff.mp h
  cases h
  exact ⟨t, hrt, hbt, rfl, rfl⟩

/-- A read is shown as it is, if what is shown is what has been read. -/
lemma show_read_reports (h : s.show_read rt_ws bt_ws data raw = some s') (hs : s.Reports)
    (hdata : s.Watched → data = raw) : s'.Reports := by
  obtain ⟨t, hrt, hbt, hmonitor, -⟩ := show_read_spec h
  constructor
  · rw [hmonitor]
    split
    · rename_i hon
      rw [Sink.add, hs.monitor, hdata (Or.inl hon)]
    · exact hs.monitor
  · exact trace_faithful hrt hs.rt fun hfile => hdata (Or.inr (Or.inl hfile))
  · refine trace_faithful hbt hs.bt fun hfile => hdata (Or.inr (Or.inr ?_))
    rcases trace_files hrt with ⟨rfl, -⟩ | ⟨-, -, rfl⟩
    · exact hfile
    · exact forget_bt_file hfile

/-- The files that are still open after a read have been there for it. -/
lemma show_read_opens (h : s.show_read rt_ws bt_ws data raw = some s') (hs : s.Opens) :
    Follows (s.xfer.received ++ raw) s'.files.rt_file s'.rt ∧
      Follows (s.xfer.received ++ raw) s'.files.bt_file s'.bt := by
  obtain ⟨t, hrt, hbt, -, -⟩ := show_read_spec h
  have hadd : ∀ {file : Option ℕ} {k k' : Sink}, Follows s.xfer.received file k → file ≠ none →
      (∃ out, k' = k.add out raw true) → k'.failed = false ∧ k'.due = s.xfer.received ++ raw := by
    rintro file k k' hk hfile ⟨out, rfl⟩
    obtain ⟨hfailed, hdue⟩ := hk hfile
    exact ⟨by rw [Sink.add, hfailed]; rfl, by rw [Sink.add, hdue]⟩
  have hself : ∀ t : Traces, (t.forget t.rt_file).rt_file = none ∧
      (t.forget t.bt_file).bt_file = none := fun t => ⟨if_pos rfl, if_pos rfl⟩
  constructor
  · intro hopen
    have hopen : t.rt_file ≠ none := by
      rcases trace_files hbt with ⟨heq, -⟩ | ⟨-, -, heq⟩
      · rwa [heq] at hopen
      · rw [heq] at hopen
        exact forget_rt_file hopen
    rcases trace_files hrt with ⟨rfl, hgiven⟩ | ⟨-, -, rfl⟩
    · exact hadd hs.rt hopen (hgiven hopen)
    · exact absurd (hself _).1 hopen
  · intro hopen
    rcases trace_files hbt with ⟨heq, hgiven⟩ | ⟨-, -, heq⟩
    · rw [heq] at hopen
      refine hadd hs.bt ?_ (hgiven hopen)
      rcases trace_files hrt with ⟨rfl, -⟩ | ⟨-, -, rfl⟩
      · exact hopen
      · exact forget_bt_file hopen
    · rw [heq] at hopen
      exact absurd (hself _).2 hopen

/-! ## The steps -/

lemma move_opens
    (hrt : Follows x.received s.files.rt_file s.rt) (hbt : Follows x.received s.files.bt_file s.bt) :
    (s.move x).Opens := by
  by_cases hclosed : x.dev_to_tcp_state = .unconnected
  · have hfiles : (s.move x).files = .init := if_pos hclosed
    constructor
    · intro hopen
      exact absurd (by rw [hfiles]; rfl) hopen
    · intro hopen
      exact absurd (by rw [hfiles]; rfl) hopen
  · have hfiles : (s.move x).files = s.files := if_neg hclosed
    constructor
    · rw [hfiles]
      exact hrt
    · rw [hfiles]
      exact hbt

lemma move_reports (hs : s.Reports) : (s.move x).Reports := ⟨hs.monitor, hs.rt, hs.bt⟩

/-- What a read of the device does. -/
lemma handle_dev_fd_read_spec (h : s.handle_dev_fd_read p avail ws rt_ws bt_ws = some s') :
    (∃ x, (∀ raw, avail.bind (fun avail => s.xfer.dev_read p avail) = some raw → raw = []) ∧
      x.received = s.xfer.received ∧ s' = s.move x) ∨
      ∃ raw s₁ x, avail.bind (fun avail => s.xfer.dev_read p avail) = some raw ∧
        s.show_read rt_ws bt_ws ((slice s.xfer.dev_to_tcp_buf 0 s.xfer.dev_to_tcp_buf_count ++
          raw).take raw.length) raw = some s₁ ∧
        x.received = s.xfer.received ++ raw ∧ s' = s₁.move x := by
  rw [handle_dev_fd_read] at h
  split at h
  · rename_i b l hraw
    obtain ⟨s₁, hshow, h⟩ := Option.bind_eq_some_iff.mp h
    obtain ⟨x, hx, h⟩ := Option.bind_eq_some_iff.mp h
    rw [slice_put_take] at hshow
    obtain ⟨-, -, -, -, hxfer⟩ := show_read_spec hshow
    rw [hxfer] at hx
    cases h
    exact Or.inr ⟨b :: l, s₁, x, hraw, hshow, Xfer.handle_dev_fd_read_received hraw hx, rfl⟩
  · rename_i hnone
    obtain ⟨x, hx, h⟩ := Option.map_eq_some_iff.mp h
    refine Or.inl ⟨x, fun raw hraw => ?_, ?_, h.symm⟩
    · cases raw with
      | nil => rfl
      | cons b l => exact absurd hraw (hnone b l)
    rw [Xfer.handle_dev_fd_read] at hx
    split at hx
    · cases hx
      rfl
    · cases hx
      rfl
    · rename_i b l hraw
      exact absurd hraw (hnone b l)

lemma step_reports (h : s.Reports) (hok : s.ReadsAlone e) (hs : s.step e = some s') :
    s'.Reports := by
  cases e with
  | transfer p e rt_ws bt_ws =>
    cases e with
    | dev_read avail ws =>
      rw [step] at hs
      split at hs
      · rename_i hreader
        rcases handle_dev_fd_read_spec hs with ⟨x, -, -, rfl⟩ | ⟨raw, s₁, x, hraw, hshow, -, rfl⟩
        · exact move_reports h
        · exact move_reports (show_read_reports hshow h fun hw => hok raw hreader hw hraw)
      · cases hs
        exact h
    | _ =>
      obtain ⟨x, -, rfl⟩ := Option.map_eq_some_iff.mp hs
      exact move_reports h
  | trace_tcp r =>
    cases hs
    exact ⟨h.monitor, h.rt, h.bt⟩
  | monitor on =>
    cases hs
    exact ⟨h.monitor, h.rt, h.bt⟩
  | setup p banner cmd f =>
    cases hs
    split
    · exact ⟨h.monitor, fun _ => rfl, fun _ => rfl⟩
    · exact h
  | shutdown =>
    cases hs
    exact move_reports h

lemma trace_tcp_opens {r : TraceInput} (h : s.Opens) :
    Opens { s with files := (s.files.trace_tcp r).1 } := by
  have hdo : ∀ (t : Traces) (file : Option ℕ) (fails : Bool),
      ((t.do_trace file fails).1.rt_file ≠ none → t.rt_file ≠ none) ∧
        ((t.do_trace file fails).1.bt_file ≠ none → t.bt_file ≠ none) := by
    intro t file fails
    rw [Traces.do_trace]
    split
    · exact ⟨forget_rt_file, forget_bt_file⟩
    · exact ⟨id, id⟩
  constructor
  · intro hopen
    exact h.rt ((hdo _ _ _).1 ((hdo _ _ _).1 hopen))
  · intro hopen
    exact h.bt ((hdo _ _ _).2 ((hdo _ _ _).2 hopen))

lemma step_opens (h : s.Opens) (hs : s.step e = some s') : s'.Opens := by
  cases e with
  | transfer p e rt_ws bt_ws =>
    cases e with
    | dev_read avail ws =>
      rw [step] at hs
      split at hs
      · rcases handle_dev_fd_read_spec hs with ⟨x, -, hx, rfl⟩ | ⟨raw, s₁, x, -, hshow, hx, rfl⟩
        · refine move_opens ?_ ?_
          · rw [hx]
            exact h.rt
          · rw [hx]
            exact h.bt
        · obtain ⟨hrt, hbt⟩ := show_read_opens hshow h
          rw [← hx] at hrt hbt
          exact move_opens hrt hbt
      · cases hs
        exact h
    | _ =>
      obtain ⟨x, hx, rfl⟩ := Option.map_eq_some_iff.mp hs
      have hreceived := Xfer.step_received (fun _ _ => Event.noConfusion) hx
      refine move_opens ?_ ?_
      · rw [hreceived]
        exact h.rt
      · rw [hreceived]
        exact h.bt
  | trace_tcp r =>
    cases hs
    exact trace_tcp_opens h
  | monitor on =>
    cases hs
    exact ⟨h.rt, h.bt⟩
  | setup p banner cmd f =>
    cases hs
    split
    · exact ⟨fun _ => ⟨rfl, rfl⟩, fun _ => ⟨rfl, rfl⟩⟩
    · exact h
  | shutdown =>
    cases hs
    exact move_opens h.rt h.bt

/-! ## Runs -/

/-- In every run whose reads are alone, the monitor has been given what the reads returned while it
was there, and so have the trace files that no write has failed on.  A file that is open has been
given everything that has been read in the session. -/
theorem monitored_reads (h : Reach step ReadsAlone init s) :
    s.monitor.got = s.monitor.due ∧ s.rt.Faithful ∧ s.bt.Faithful ∧
      (s.files.rt_file ≠ none → s.rt.got = s.xfer.received) ∧
      (s.files.bt_file ≠ none → s.bt.got = s.xfer.received) := by
  have hreports : s.Reports :=
    h.induction_on ⟨rfl, fun _ => rfl, fun _ => rfl⟩ fun _ _ _ h hok hs => step_reports h hok hs
  have hopens : s.Opens :=
    h.induction_on ⟨fun h => absurd rfl h, fun h => absurd rfl h⟩ fun _ _ _ h _ hs => step_opens h hs
  refine ⟨hreports.monitor, hreports.rt, hreports.bt, fun hopen => ?_, fun hopen => ?_⟩
  · obtain ⟨hok, hdue⟩ := hopens.rt hopen
    rw [hreports.rt hok, hdue]
  · obtain ⟨hok, hdue⟩ := hopens.bt hopen
    rw [hreports.bt hok, hdue]

/-- Two reads, each when nothing waits; a trace file takes its bytes one by one. -/
theorem monitored_reads_apart :
    ∃ s, Reach step ReadsAlone init s ∧ s.xfer.received = [65, 66, 67] ∧
      s.files.rt_file = some 5 ∧ s.files.bt_file = some 6 ∧
      s.monitor.got = s.monitor.due ∧ s.rt.Faithful ∧ s.bt.Faithful ∧
      (s.files.rt_file ≠ none → s.rt.got = s.xfer.received) ∧
      (s.files.bt_file ≠ none → s.bt.got = s.xfer.received) := by
  obtain ⟨s, hreach, hreceived, hrt, hbt⟩ : ∃ s, Reach step ReadsAlone init s ∧
      s.xfer.received = [65, 66, 67] ∧ s.files.rt_file = some 5 ∧ s.files.bt_file = some 6 := by
    refine ⟨_, ((((Reach.init.step (e := .setup ⟨.raw, 1, false⟩ [] []
      ⟨none, some ['r'], some ['b'], none, some 5, some 6⟩) trivial rfl).step
      (e := .monitor true) trivial rfl).step
      (e := .transfer ⟨.raw, 1, false⟩ (.dev_read (some [65, 66]) [.accepted 2])
        [.EINTR, .accepted 1, .accepted 1] [.accepted 2]) ?_ rfl).step
      (e := .transfer ⟨.raw, 1, false⟩ (.dev_read (some [67]) [.accepted 1])
        [.accepted 1] [.accepted 1]) ?_ rfl), rfl, rfl, rfl⟩
    · rintro raw - - hraw
      cases hraw
      rfl
    · rintro raw - - hraw
      cases hraw
      rfl
  exact ⟨s, hreach, hreceived, hrt, hbt, monitored_reads hreach⟩

/-- When a byte waits for a second one, the first is shown twice. -/
theorem monitored_reads_twice :
    ¬ ∀ s, Reach step (fun _ _ => True) init s → s.monitor.got = s.monitor.due ∧
      (s.files.rt_file ≠ none → s.rt.got = s.xfer.received) ∧
      (s.files.bt_file ≠ none → s.bt.got = s.xfer.received) := by
  intro h
  obtain ⟨s, hs, hgot, hdue⟩ : ∃ s, replay step init
      [.setup ⟨.raw, 2, false⟩ [] [] ⟨none, some ['r'], some ['b'], none, some 5, some 6⟩,
        .monitor true,
        .transfer ⟨.raw, 2, false⟩ (.dev_read (some [65]) []) [.accepted 1] [.accepted 1],
        .transfer ⟨.raw, 2, false⟩ (.dev_read (some [66]) [.accepted 2]) [.accepted 1]
          [.accepted 1]] = some s ∧
      s.monitor.got = [65, 65] ∧ s.monitor.due = [65, 66] := ⟨_, rfl, rfl, rfl⟩
  obtain ⟨hmonitor, -, -⟩ := h s (Reach.init.of_replay hs)
  rw [hgot, hdue] at hmonitor
  exact absurd hmonitor (by decide)

/-! ## The condition -/

/-- A read that is watched has to be alone, if no write to a trace file fails. -/
theorem readsAlone_of_reports (h : s.Reports) (hs : s.step e = some s') (h' : s'.Reports)
    (hrt : s'.rt.failed = false) (hbt : s'.bt.failed = false) : s.ReadsAlone e := by
  cases e with
  | transfer p e rt_ws bt_ws =>
    cases e with
    | dev_read avail ws =>
      intro raw hreader hw hraw
      rw [step, if_pos hreader] at hs
      rcases handle_dev_fd_read_spec hs with ⟨x, hnil, -, rfl⟩ | ⟨raw', s₁, x, hraw', hshow, -, rfl⟩
      · rw [hnil raw hraw]
        rfl
      · cases hraw.symm.trans hraw'
        obtain ⟨t, hrt', hbt', hmonitor, -⟩ := show_read_spec hshow
        rcases hw with hon | hfile | hfile
        · have heq : s₁.monitor.got = s₁.monitor.due := h'.monitor
          rw [hmonitor, if_pos hon, Sink.add, h.monitor] at heq
          exact List.append_cancel_left heq
        · exact eq_of_trace_faithful hrt' h.rt h'.rt hfile hrt
        · refine eq_of_trace_faithful hbt' h.bt h'.bt ?_ hbt
          rcases trace_files hrt' with ⟨rfl, -⟩ | ⟨-, hfailed, -⟩
          · exact hfile
          · exact absurd (hfailed.symm.trans hrt) (by decide)
    | _ => trivial
  | _ => trivial

end Traced

end EspLinux.Ser2net
