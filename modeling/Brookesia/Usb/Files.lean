import Brookesia.Usb.FrameBytes

/-! # The temporary file

What a transfer does with its file, and what the host command bridge is given. `trace` is read from the
beginning: `disk` is what it leaves of files and open descriptors. -/

namespace Brookesia.Usb.Files

open Transition List Option
open Filesystem.Path Data.Json Protocol Port
open Impl

/-! ### Files of a trace -/

/-- Paths with what is in the files, and the paths of the descriptors. -/
structure Disk where
  files : List (Bytes × Bytes)
  descriptors : List Bytes
  deriving DecidableEq

def Disk.empty : Disk := ⟨[], []⟩

def Disk.apply (d : Disk) : Event → Disk
  | .openFile path => ⟨(path, []) :: d.files.filter (·.1 ≠ path), path :: d.descriptors⟩
  | .write path data => { d with files := d.files.map fun f => if f.1 = path then (f.1, f.2 ++ data) else f }
  | .close path => { d with descriptors := d.descriptors.erase path }
  | .remove path => { d with files := d.files.filter (·.1 ≠ path) }
  | .accepted _ => d
  | .frame _ => d
  | .callBridge _ _ => d

def disk (trace : List Event) : Disk := trace.foldl Disk.apply .empty

def frameOf : Event → Option BinaryFrame
  | .frame f => some f
  | _ => none

def framesOf (trace : List Event) : List BinaryFrame := trace.filterMap frameOf

def IsMark : Event → Prop
  | .accepted _ => True
  | .callBridge _ _ => True
  | _ => False

def Numbered (requestId : ℕ) (frames : List BinaryFrame) : Prop :=
  ∀ (i : ℕ) (h : i < frames.length),
    frames[i].type = .data ∧ frames[i].requestId = requestId ∧ frames[i].sequence = UInt32.ofNat i

def contents (frames : List BinaryFrame) : Bytes := (frames.map (·.payload)).flatten

/-- A call of the bridge: it is the only one since a transfer was accepted, and its file has the payloads of
numbered data frames that came since then, the size and the digest of the command. -/
def GoodCall (env : Env) (pre : List Event) (artifact : TransferArtifact) (destination : Bytes) : Prop :=
  ∃ (transfer : Transfer) (before since : List Event) (frames : List BinaryFrame),
    pre = before ++ .accepted transfer :: since ∧ (∀ e ∈ since, ¬ IsMark e) ∧
    frames.Sublist (framesOf since) ∧ Numbered transfer.requestId frames ∧
    disk pre = ⟨[(artifact.temporaryPath, contents frames)], []⟩ ∧
    (contents frames).length = transfer.expectedSize ∧
    env.sha256 (contents frames) = transfer.expectedSha256 ∧
    artifact = ⟨transfer.command, transfer.requestId, transfer.temporaryPath, transfer.expectedSize,
      transfer.expectedSha256, transfer.overwrite⟩ ∧
    destination = transfer.destination

def CallsGood (env : Env) (trace : List Event) : Prop :=
  ∀ pre post artifact destination, trace = pre ++ .callBridge artifact destination :: post →
    GoodCall env pre artifact destination

variable {env : Env} {s t : Impl} {trace events : List Event}

theorem disk_append : disk (trace ++ events) = events.foldl Disk.apply (disk trace) := foldl_append

theorem framesOf_append : framesOf (trace ++ events) = framesOf trace ++ framesOf events := filterMap_append

theorem CallsGood.append (h : CallsGood env trace) (hevs : ∀ e ∈ events, ¬ IsMark e ∨ ∃ t, e = .accepted t) :
    CallsGood env (trace ++ events) := by
  intro pre post artifact destination heq
  have hno : ∀ m, events ≠ m ++ .callBridge artifact destination :: post := by
    intro m hm
    rcases hevs (.callBridge artifact destination) (hm ▸ mem_append_right _ mem_cons_self) with hn | ⟨_, hn⟩
    · exact hn trivial
    · cases hn
  rcases append_eq_append_iff.mp heq with ⟨m, _, hm⟩ | ⟨m, hm, hrest⟩
  · exact absurd hm (hno m)
  · cases m with
    | nil => exact absurd hrest.symm (hno [])
    | cons e m =>
      obtain ⟨rfl, _⟩ := cons.inj hrest
      exact h pre m artifact destination hm

theorem CallsGood.call (h : CallsGood env trace) {artifact : TransferArtifact} {destination : Bytes}
    (hcall : GoodCall env trace artifact destination) :
    CallsGood env (trace ++ [.callBridge artifact destination]) := by
  intro pre post artifact' destination' heq
  rcases append_eq_append_iff.mp heq with ⟨m, hpre, hm⟩ | ⟨m, hm, hrest⟩
  · cases m with
    | nil =>
      simp only [nil_append, cons.injEq, Event.callBridge.injEq] at hm
      obtain ⟨⟨rfl, rfl⟩, _⟩ := hm
      rw [hpre, append_nil]
      exact hcall
    | cons e m => simp at hm
  · cases m with
    | nil =>
      simp only [nil_append, cons.injEq, Event.callBridge.injEq] at hrest
      obtain ⟨⟨rfl, rfl⟩, _⟩ := hrest
      rw [append_nil] at hm
      rw [← hm]
      exact hcall
    | cons e m =>
      obtain ⟨rfl, _⟩ := cons.inj hrest
      exact h pre m artifact' destination' hm

theorem Numbered.append {requestId : ℕ} {frames : List BinaryFrame} {f : BinaryFrame} (h : Numbered requestId frames)
    (htype : f.type = .data) (hid : f.requestId = requestId) (hseq : f.sequence = UInt32.ofNat frames.length) :
    Numbered requestId (frames ++ [f]) := by
  intro i hi
  rw [length_append, length_singleton] at hi
  by_cases hlast : i < frames.length
  · rw [getElem_append_left hlast]
    exact h i hlast
  · obtain rfl : i = frames.length := by omega
    rw [getElem_concat_length]
    · exact ⟨htype, hid, hseq⟩
    · rfl

/-! ### What is invariant -/

/-- The part of the port that the claim about its files is about. -/
structure View where
  transfer : Option Transfer
  portState : PortState
  activeRequestId : ℕ
  trace : List Event

def view (s : Impl) : View := ⟨s.transfer, s.status.portState, s.status.activeRequestId, s.trace⟩

def declared (t : Transfer) : HostCommand × ℕ × ℕ × Bytes × Bytes × Bytes × Bool :=
  (t.command, t.requestId, t.expectedSize, t.expectedSha256, t.temporaryPath, t.destination, t.overwrite)

/-- The data of a transfer come from numbered frames since its command. -/
def Assembled (trace : List Event) (t : Transfer) : Prop :=
  ∃ (transfer : Transfer) (before since : List Event) (frames : List BinaryFrame),
    trace = before ++ .accepted transfer :: since ∧ (∀ e ∈ since, ¬ IsMark e) ∧ declared transfer = declared t ∧
    frames.Sublist (framesOf since) ∧ Numbered t.requestId frames ∧ t.data = contents frames ∧
    t.expectedSequence = UInt32.ofNat frames.length

structure Receiving (v : View) (t : Transfer) : Prop where
  busy : v.portState = .busy
  active : v.activeRequestId = t.requestId
  disk : disk v.trace = ⟨[(t.temporaryPath, t.data)], if t.isOpen then [t.temporaryPath] else []⟩
  size : t.receivedSize = t.data.length
  assembled : Assembled v.trace t

structure Resting (v : View) : Prop where
  notBusy : v.portState ≠ .busy
  active : v.activeRequestId = 0
  disk : disk v.trace = .empty

structure Good (env : Env) (v : View) : Prop where
  calls : CallsGood env v.trace
  resting : v.transfer = none → Resting v
  receiving : ∀ t, v.transfer = some t → Receiving v t ∧ t.isOpen = true

def Inv (env : Env) (s : Impl) : Prop := Good env (view s)

theorem Inv.of_view (h : Inv env s) (hview : view t = view s) : Inv env t := by
  unfold Inv
  rw [hview]
  exact h

theorem Good.rest (hcs : CallsGood env trace) (hdisk : disk trace = .empty) : Good env ⟨none, .ready, 0, trace⟩ := by
  refine ⟨hcs, fun _ => ⟨?_, rfl, hdisk⟩, ?_⟩
  · intro hbusy
    cases hbusy
  · intro t ht
    cases ht

/-! ### The end of a transfer -/

def removal (t : Transfer) : List Event :=
  (if t.isOpen then [.close t.temporaryPath] else []) ++ [.remove t.temporaryPath]

theorem not_mark_removal (transfer : Transfer) : ∀ e ∈ removal transfer, ¬ IsMark e := by
  intro e he
  unfold removal at he
  split_ifs at he <;> simp only [cons_append, nil_append, mem_cons, not_mem_nil, or_false] at he
  · rcases he with rfl | rfl <;> exact id
  · subst he
    exact id

theorem Good.removed {transfer : Transfer} {content : Bytes} (hcs : CallsGood env trace)
    (hdisk : disk trace = ⟨[(transfer.temporaryPath, content)], if transfer.isOpen then [transfer.temporaryPath] else []⟩) :
    Good env ⟨none, .ready, 0, trace ++ removal transfer⟩ := by
  refine .rest (hcs.append fun e he => .inl (not_mark_removal transfer e he)) ?_
  rw [disk_append, hdisk]
  unfold removal
  cases transfer.isOpen <;> simp [Disk.apply, Disk.empty]

theorem failTransfer_inv {transfer : Transfer} {content : Bytes} (ht : s.transfer = some transfer)
    (hcs : CallsGood env s.trace)
    (hdisk : disk s.trace =
      ⟨[(transfer.temporaryPath, content)], if transfer.isOpen then [transfer.temporaryPath] else []⟩)
    (code message : String) : Inv env (s.failTransfer code message) := by
  have hview : view (s.failTransfer code message) = ⟨none, .ready, 0, s.trace ++ removal transfer⟩ := by
    unfold failTransfer
    rw [ht]
    rfl
  unfold Inv
  rw [hview]
  exact .removed hcs hdisk

theorem Inv.failTransfer (h : Inv env s) (code message : String) : Inv env (s.failTransfer code message) := by
  cases ht : s.transfer with
  | none =>
    have hview : view (s.failTransfer code message) = ⟨none, .ready, 0, s.trace⟩ := by
      unfold Impl.failTransfer
      rw [ht]
      rfl
    unfold Inv
    rw [hview]
    exact .rest h.calls (h.resting ht).disk
  | some transfer => exact failTransfer_inv ht h.calls (h.receiving transfer ht).1.disk code message

theorem Inv.abortTransferInternal (h : Inv env s) (requestId : ℕ) (reason : String) (notifyHost : Bool) :
    Inv env (s.abortTransferInternal requestId reason notifyHost).2 := by
  unfold Impl.abortTransferInternal
  split
  · exact h
  · next transfer ht =>
    split
    · exact h
    · have hview : view (abortActiveTransfer s transfer reason notifyHost) =
          ⟨none, .ready, 0, s.trace ++ removal transfer⟩ := by
        cases notifyHost <;> rfl
      unfold Inv
      rw [hview]
      exact .removed h.calls (h.receiving transfer ht).1.disk

/-! ### The beginning of a transfer -/

theorem openTransfer_inv (h : Inv env s) (ht : s.transfer = none) {transfer : Transfer}
    (hdata : transfer.data = []) (hsize : transfer.receivedSize = 0) (hseq : transfer.expectedSequence = 0) :
    Inv env (openTransfer env s transfer) := by
  have hrest := h.resting ht
  unfold openTransfer
  split
  · exact h.of_view rfl
  split
  · exact h.of_view rfl
  split
  · unfold Inv
    have hcs : CallsGood env (s.trace ++ [.openFile transfer.temporaryPath, .remove transfer.temporaryPath,
        .close transfer.temporaryPath]) := by
      refine h.calls.append fun e he => .inl ?_
      simp only [mem_cons, not_mem_nil, or_false] at he
      rcases he with rfl | rfl | rfl <;> exact id
    refine ⟨hcs, fun _ => ⟨hrest.notBusy, hrest.active, ?_⟩, fun t htr => ?_⟩
    · show disk (s.trace ++ _) = _
      rw [disk_append, show disk s.trace = .empty from hrest.disk]
      simp [Disk.apply, Disk.empty]
    · rw [show s.transfer = some t from htr] at ht
      cases ht
  · unfold Inv
    refine ⟨?_, fun hnone => (by cases hnone), fun t htr => ?_⟩
    · refine h.calls.append fun e he => ?_
      simp only [mem_cons, not_mem_nil, or_false] at he
      rcases he with rfl | rfl
      · exact .inl id
      · exact .inr ⟨_, rfl⟩
    · cases htr
      refine ⟨⟨rfl, rfl, ?_, ?_, ?_⟩, rfl⟩
      · show disk (s.trace ++ _) = _
        rw [disk_append, show disk s.trace = .empty from hrest.disk]
        simp [Disk.apply, Disk.empty, hdata]
      · show transfer.receivedSize = transfer.data.length
        rw [hdata, hsize]
        rfl
      · exact ⟨_, s.trace ++ [.openFile transfer.temporaryPath], [], [], by rw [append_assoc]; rfl, by simp, rfl,
          Sublist.refl _, fun i hi => absurd hi (Nat.not_lt_zero i), hdata, hseq⟩

theorem beginTransfer_inv (h : Inv env s) (requestId : ℕ) (command : HostCommand) (params : JsonObject) :
    Inv env (beginTransfer env s requestId command params) := by
  unfold beginTransfer
  split
  · exact h.of_view rfl
  next hsome =>
  have ht : s.transfer = none := not_isSome_iff_eq_none.mp hsome
  split
  · split
    · exact h.of_view rfl
    split
    · exact h.of_view rfl
    split
    · exact h.of_view rfl
    · exact openTransfer_inv h ht rfl rfl rfl
  · exact h.of_view rfl

/-! ### Frames -/

theorem Assembled.append {transfer : Transfer} (h : Assembled trace transfer) (hevs : ∀ e ∈ events, ¬ IsMark e) :
    Assembled (trace ++ events) transfer := by
  obtain ⟨first, before, since, frames, rfl, hsince, hdecl, hsub, hnumd, hdata, hseq⟩ := h
  refine ⟨first, before, since ++ events, frames, ?_, ?_, hdecl, ?_, hnumd, hdata, hseq⟩
  · rw [append_assoc, cons_append]
  · exact fun e he => (mem_append.mp he).elim (hsince e) (hevs e)
  · rw [framesOf_append]
    exact hsub.trans (sublist_append_left _ _)

theorem Assembled.frame {transfer : Transfer} {frame : BinaryFrame} (h : Assembled trace transfer)
    (hevs : ∀ e ∈ events, ¬ IsMark e) (hfrs : framesOf events = [frame]) (htype : frame.type = .data)
    (hid : frame.requestId = transfer.requestId) (hnum : frame.sequence = transfer.expectedSequence) :
    Assembled (trace ++ events)
      { transfer with
        receivedSize := transfer.receivedSize + frame.payload.length
        data := transfer.data ++ frame.payload
        expectedSequence := transfer.expectedSequence + 1 } := by
  obtain ⟨first, before, since, frames, rfl, hsince, hdecl, hsub, hnumd, hdata, hseq⟩ := h
  refine ⟨first, before, since ++ events, frames ++ [frame], ?_, ?_, hdecl, ?_,
    hnumd.append htype hid (hnum.trans hseq), ?_, ?_⟩
  · rw [append_assoc, cons_append]
  · exact fun e he => (mem_append.mp he).elim (hsince e) (hevs e)
  · rw [framesOf_append, hfrs]
    exact hsub.append (Sublist.refl _)
  · rw [hdata]
    simp [contents]
  · show transfer.expectedSequence + 1 = _
    rw [hseq, length_append, length_singleton, UInt32.ofNat_add]
    rfl

theorem Receiving.append {v : View} {transfer : Transfer} (h : Receiving v transfer)
    (hevs : ∀ e ∈ events, ¬ IsMark e) (hdisk : events.foldl Disk.apply (Files.disk v.trace) = Files.disk v.trace) :
    Receiving { v with trace := v.trace ++ events } transfer where
  busy := h.busy
  active := h.active
  disk := by rw [disk_append, hdisk, h.disk]
  size := h.size
  assembled := h.assembled.append hevs

section Frame

variable {transfer : Transfer} {frame : BinaryFrame}

/-- A transfer whose next frame is being handled. -/
structure Handling (env : Env) (s : Impl) (trace : List Event) (transfer : Transfer) (frame : BinaryFrame) : Prop where
  active : s.transfer = some transfer
  isOpen : transfer.isOpen = true
  recorded : s.trace = trace ++ [.frame frame]
  calls : CallsGood env trace
  receiving : Receiving { view s with trace } transfer

theorem not_mark_frame : ∀ e ∈ [Event.frame frame], ¬ IsMark e := by
  intro e he
  rw [mem_singleton.mp he]
  exact id

theorem Handling.now (h : Handling env s trace transfer frame) : Receiving (view s) transfer := by
  have happ := h.receiving.append (@not_mark_frame frame) rfl
  dsimp only at happ
  rw [← h.recorded] at happ
  exact happ

theorem Handling.callsNow (h : Handling env s trace transfer frame) : CallsGood env s.trace := by
  rw [h.recorded]
  exact h.calls.append fun e he => .inl (not_mark_frame e he)

theorem Handling.inv (h : Handling env s trace transfer frame) : Inv env s := by
  refine ⟨h.callsNow, fun hnone => ?_, fun t ht => ?_⟩
  · have hsome := h.active
    rw [show s.transfer = none from hnone] at hsome
    cases hsome
  · obtain rfl : transfer = t := some.inj (h.active.symm.trans ht)
    exact ⟨h.now, h.isOpen⟩

theorem Handling.fail (h : Handling env s trace transfer frame) (code message : String) :
    Inv env (s.failTransfer code message) := failTransfer_inv h.active h.callsNow h.now.disk code message

def writes (transfer : Transfer) (frame : BinaryFrame) : List Event :=
  if frame.payload = [] then [] else [.write transfer.temporaryPath frame.payload]

theorem not_mark_writes : ∀ e ∈ writes transfer frame, ¬ IsMark e := by
  intro e he
  unfold writes at he
  split_ifs at he
  · cases he
  · rw [mem_singleton.mp he]
    exact id

theorem framesOf_writes : framesOf (writes transfer frame) = [] := by
  unfold writes
  split_ifs <;> rfl

theorem apply_writes {data : Bytes} {descriptors : List Bytes} :
    (writes transfer frame).foldl Disk.apply ⟨[(transfer.temporaryPath, data)], descriptors⟩ =
      ⟨[(transfer.temporaryPath, data ++ frame.payload)], descriptors⟩ := by
  unfold writes
  split_ifs with hemp
  · rw [hemp, append_nil]
    rfl
  · simp [Disk.apply]

theorem Handling.data (h : Handling env s trace transfer frame) (htype : frame.type = .data)
    (hid : frame.requestId = transfer.requestId) (hnum : frame.sequence = transfer.expectedSequence) :
    Inv env (handleData env s transfer frame) := by
  unfold handleData
  split
  · exact h.fail _ _
  have hcs : CallsGood env (s.trace ++ writes transfer frame) :=
    h.callsNow.append fun e he => .inl (not_mark_writes e he)
  have hdisk : disk (s.trace ++ writes transfer frame) = ⟨[(transfer.temporaryPath, transfer.data ++ frame.payload)],
        if transfer.isOpen then [transfer.temporaryPath] else []⟩ := by
    rw [disk_append, show disk s.trace = _ from h.now.disk, apply_writes]
  have hfail : ∀ code message, Inv env ((s.record (writes transfer frame)).failTransfer code message) :=
    fun code message => failTransfer_inv (s := s.record (writes transfer frame)) h.active hcs hdisk code message
  change Inv env (countData env (s.record (writes transfer frame)) transfer frame)
  unfold countData
  split
  · exact hfail _ _
  split
  · exact hfail _ _
  refine ⟨hcs, fun hnone => (by cases hnone), fun t ht => ?_⟩
  cases ht
  have hmarks : ∀ e ∈ [Event.frame frame] ++ writes transfer frame, ¬ IsMark e :=
    fun e he => (mem_append.mp he).elim (not_mark_frame e) (not_mark_writes e)
  have hfrs : framesOf ([Event.frame frame] ++ writes transfer frame) = [frame] := by
    rw [framesOf_append, framesOf_writes]
    rfl
  have hassembled := h.receiving.assembled.frame hmarks hfrs htype hid hnum
  dsimp only at hassembled
  rw [← append_assoc, ← h.recorded] at hassembled
  refine ⟨⟨h.receiving.busy, h.receiving.active, hdisk, ?_, hassembled⟩, h.isOpen⟩
  show transfer.receivedSize + frame.payload.length = (transfer.data ++ frame.payload).length
  rw [length_append, show transfer.receivedSize = _ from h.receiving.size]

theorem goodCall {tr : List Event} (h : Assembled tr transfer)
    (hdisk : disk tr = ⟨[(transfer.temporaryPath, transfer.data)], []⟩)
    (hlen : transfer.data.length = transfer.expectedSize)
    (hsha : env.sha256 transfer.data = transfer.expectedSha256) :
    GoodCall env tr (transferArtifact env transfer) transfer.destination := by
  obtain ⟨first, before, since, frames, htr, hsince, hdecl, hsub, hnumd, hdata, _⟩ := h
  simp only [declared, Prod.mk.injEq] at hdecl
  obtain ⟨hcmd, hid, hsize, hdigest, hpath, hdestination, hoverwrite⟩ := hdecl
  refine ⟨first, before, since, frames, htr, hsince, hsub, ?_, ?_, ?_, ?_, ?_, hdestination.symm⟩
  · rw [hid]
    exact hnumd
  · rw [← hdata]
    exact hdisk
  · rw [← hdata, hlen, hsize]
  · rw [← hdata, hsha, hdigest]
  · rw [hcmd, hid, hsize, hdigest, hpath, hoverwrite, ← hsha]
    rfl

theorem Handling.bridge (h : Handling env s trace transfer frame)
    (hsize : transfer.receivedSize = transfer.expectedSize)
    (hsha : env.sha256 transfer.data = transfer.expectedSha256) : Inv env (callBridge env s transfer) := by
  have hmark : ∀ e ∈ [Event.close transfer.temporaryPath], ¬ IsMark e := by
    intro e he
    rw [mem_singleton.mp he]
    exact id
  have hcs : CallsGood env (s.trace ++ [.close transfer.temporaryPath]) :=
    h.callsNow.append fun e he => .inl (hmark e he)
  have hdisk : disk (s.trace ++ [.close transfer.temporaryPath]) = ⟨[(transfer.temporaryPath, transfer.data)], []⟩ := by
    rw [disk_append, show disk s.trace = _ from h.now.disk, h.isOpen]
    simp [Disk.apply]
  have hgood := goodCall (h.now.assembled.append hmark) hdisk (h.receiving.size.symm.trans hsize) hsha
  have hcald := hcs.call hgood
  unfold callBridge giveToBridge
  split
  · exact failTransfer_inv (s := s.startHandling transfer) rfl hcs hdisk _ _
  have hsame : disk ((s.trace ++ [.close transfer.temporaryPath]) ++
      [.callBridge (transferArtifact env transfer) transfer.destination]) =
      ⟨[(transfer.temporaryPath, transfer.data)], []⟩ := by
    rw [disk_append, hdisk]
    rfl
  dsimp only
  split
  · exact failTransfer_inv (s := (s.startHandling transfer).record
      [.callBridge (transferArtifact env transfer) transfer.destination]) rfl hcald hsame _ _
  · unfold completeTransfer
    have hrmv : ∀ e ∈ [Event.remove transfer.temporaryPath], ¬ IsMark e ∨ ∃ t, e = .accepted t := by
      intro e he
      rw [mem_singleton.mp he]
      exact .inl id
    refine Good.rest (hcald.append hrmv) ?_
    · show disk (((s.trace ++ [.close transfer.temporaryPath]) ++
        [.callBridge (transferArtifact env transfer) transfer.destination]) ++ [.remove transfer.temporaryPath]) = _
      rw [disk_append, hsame]
      simp [Disk.apply, Disk.empty]

theorem Handling.finish (h : Handling env s trace transfer frame) : Inv env (finishTransfer env s transfer frame) := by
  unfold finishTransfer
  split
  · exact h.fail _ _
  split
  · exact h.fail _ _
  next hsize =>
  split
  · exact h.fail _ _
  split
  · exact h.fail _ _
  next hsha => exact h.bridge (not_not.mp hsize) (not_not.mp hsha)

theorem Handling.handle (h : Handling env s trace transfer frame) :
    Inv env (handleTransferFrame env s transfer frame) := by
  unfold handleTransferFrame
  split
  · exact h.inv.of_view rfl
  next hid =>
  split
  · exact h.inv.abortTransferInternal _ _ _
  split
  · exact h.inv.of_view rfl
  split
  · exact h.fail _ _
  next hnum =>
  split
  · next htype => exact h.data htype (not_not.mp hid) (not_not.mp hnum)
  · exact h.finish

end Frame

theorem Inv.handleFrame (h : Inv env s) (frame : BinaryFrame) : Inv env (handleFrame env s frame) := by
  unfold Impl.handleFrame
  cases ht : s.transfer with
  | none =>
    have hrest := h.resting ht
    refine Inv.of_view (s := s.recordFrame frame) ⟨?_, fun _ => ⟨hrest.notBusy, hrest.active, ?_⟩, fun t htr => ?_⟩ rfl
    · exact h.calls.append fun e he => .inl (not_mark_frame e he)
    · show disk (s.trace ++ [.frame frame]) = _
      rw [disk_append, show disk s.trace = _ from hrest.disk]
      rfl
    · rw [show s.transfer = some t from htr] at ht
      cases ht
  | some transfer =>
    obtain ⟨hrecv, hopen⟩ := h.receiving transfer ht
    have hhandling : Handling env (s.recordFrame frame) s.trace transfer frame :=
      ⟨ht, hopen, rfl, h.calls, ⟨hrecv.busy, hrecv.active, hrecv.disk, hrecv.size, hrecv.assembled⟩⟩
    exact hhandling.handle

/-! ### Commands -/

theorem Inv.handleAbort (h : Inv env s) (requestId : ℕ) : Inv env (handleAbort s requestId).1 := by
  have habort := h.abortTransferInternal requestId "aborted" true
  unfold Impl.handleAbort abortTransfer
  split
  · next t ht =>
    rw [ht] at habort
    exact habort
  · next t ht =>
    rw [ht] at habort
    exact habort.of_view rfl

theorem Inv.handleServiceCall (h : Inv env s) (requestId : ℕ) (command : JsonObject) :
    Inv env (handleServiceCall env s requestId command).1 := by
  unfold Impl.handleServiceCall
  split
  · split
    · exact h.of_view rfl
    split
    · exact h.of_view rfl
    · exact h.of_view rfl
  · exact h.of_view rfl

theorem Inv.runCommand (h : Inv env s) (requestId : ℕ) (op : Bytes) (command : JsonObject) :
    Inv env (runCommand env s requestId op command).1 := by
  unfold Impl.runCommand handleHello
  split
  · split
    · exact h.of_view rfl
    · exact h.of_view rfl
  split
  · exact h.handleAbort requestId
  split
  · exact h.of_view rfl
  split
  · exact h.of_view rfl
  split
  · exact (h.abortTransferInternal 0 "control session ended" false).of_view rfl
  split
  · exact h.handleServiceCall requestId command
  split
  · exact beginTransfer_inv h requestId _ command
  · exact h.of_view rfl

theorem Inv.handleCommand (h : Inv env s) (command : JsonObject) : Inv env (handleCommand env s command).1 := by
  unfold Impl.handleCommand
  split
  · exact h.of_view rfl
  split
  · exact h.of_view rfl
  split
  · exact h.of_view rfl
  split
  · exact h.of_view rfl
  split
  · exact h.of_view rfl
  · refine Inv.runCommand ?_ _ _ _
    exact h.of_view rfl

/-! ### The bytes that are received -/

theorem Inv.takeLine (h : Inv env s) (line : List RxByte) : Inv env (takeLine env s line) := by
  unfold Impl.takeLine
  split
  · split
    · exact h.of_view rfl
    · exact h.of_view rfl
  · exact (h.handleCommand _).of_view rfl

theorem Inv.textLoop (h : Inv env s) (turns : ℕ) : Inv env (textLoop env turns s) := by
  induction turns generalizing s with
  | zero => exact h
  | succ turns ih =>
    unfold Impl.textLoop
    split
    · split
      · split
        · exact h.of_view rfl
        · exact h.of_view rfl
      · exact h
    · next line rest _ =>
      have hrest : Inv env { s with rxBuffer := rest } := h.of_view rfl
      have hline : Inv env (Impl.takeLine env { s with rxBuffer := rest } line) := hrest.takeLine line
      dsimp only
      split
      · exact hline.of_view rfl
      · exact ih hline

theorem Inv.frameLoop (h : Inv env s) (turns : ℕ) : Inv env (frameLoop env turns s) := by
  induction turns generalizing s with
  | zero => exact h
  | succ turns ih =>
    unfold Impl.frameLoop
    split
    · exact h
    split
    · exact h.failTransfer _ _
    · exact h
    · next frame rest _ =>
      have hrest : Inv env { s with frameParser := rest } := h.of_view rfl
      exact ih (hrest.handleFrame frame)

theorem Inv.deliver (h : Inv env s) (chunk : List RxByte) : Inv env (deliver env s chunk) := by
  have hchunk : Inv env { s with rxBuffer := s.rxBuffer ++ chunk } := h.of_view rfl
  unfold Impl.deliver processRxBuffer
  split
  · split
    · next line rest command _ =>
      have hrest : Inv env { s with rxBuffer := rest } := h.of_view rfl
      exact (hrest.handleCommand command).of_view rfl
    · refine Inv.frameLoop ?_ _
      exact h.of_view rfl
  · exact hchunk.textLoop _

/-! ### Runs -/

/-- `stop` and `start` of the service; what has been received stays where it is. -/
def restart (s : Impl) (connected : Bool) : Impl :=
  publishPortState
    { (s.abortTransferInternal 0 "service stopped" false).2 with
      status := ⟨.ready, connected, false, false, 0⟩
      transferStatus := ⟨.idle, 0, 0, 0, ""⟩ }

inductive Action
  | pump (a : FrameBytes.Action)
  | restart (connected : Bool)

def step (env : Env) (s : Impl) : Action → Option Impl
  | .pump a => FrameBytes.step env s a
  | .restart connected => some (restart s connected)

/-- A port that is started for the first time. -/
structure Started (s : Impl) : Prop where
  ready : s.status.portState = .ready
  noRequest : s.status.activeRequestId = 0
  transfer : s.transfer = none
  trace : s.trace = []

def machine (env : Env) : Machine Impl Action where
  init := Started
  step := step env

theorem Started.inv (h : Started s) : Inv env s := by
  unfold Inv view
  rw [h.ready, h.noRequest, h.transfer, h.trace]
  exact .rest (fun pre post _ _ heq => by simp at heq) rfl

theorem Inv.endSession (h : Inv env s) : Inv env s.endSession := h.of_view rfl

theorem Inv.setConnected (h : Inv env s) (connected : Bool) : Inv env (s.setConnected connected) := by
  unfold Impl.setConnected
  split
  · exact h.of_view rfl
  · exact h.of_view rfl

theorem Inv.pump (h : Inv env s) {a : FrameBytes.Action} (hst : FrameBytes.step env s a = some t) : Inv env t := by
  cases a
  all_goals cases hst
  case receive chunk => exact h.deliver chunk
  case queueFull =>
    unfold Impl.queueFull
    split
    · exact h.failTransfer _ _
    · exact h
  case connection connected =>
    unfold updateConnectionState
    split
    · exact ((h.setConnected connected).abortTransferInternal 0 _ false).endSession
    · exact h.setConnected connected
  case transferTimeout =>
    unfold Impl.transferTimeout
    split
    · exact (h.failTransfer _ _).endSession
    · exact h
  case sessionTimeout =>
    unfold Impl.sessionTimeout
    split
    · split
      · exact (h.failTransfer _ _).endSession
      · refine Inv.endSession ?_
        exact h.of_view rfl
    · exact h
  case abortTransfer requestId => exact h.abortTransferInternal requestId "aborted" true

theorem Inv.restart (h : Inv env s) (connected : Bool) : Inv env (restart s connected) := by
  have habort := h.abortTransferInternal 0 "service stopped" false
  have hnone : (s.abortTransferInternal 0 "service stopped" false).2.transfer = none := by
    unfold Impl.abortTransferInternal
    split
    · next ht => exact ht
    · split
      · next hid => exact absurd rfl hid.1
      · rfl
  have hrest := habort.resting hnone
  have hview : view (Files.restart s connected) =
      ⟨none, .ready, 0, (s.abortTransferInternal 0 "service stopped" false).2.trace⟩ := by
    show View.mk (s.abortTransferInternal 0 "service stopped" false).2.transfer _ _ _ = _
    rw [hnone]
    rfl
  unfold Inv
  rw [hview]
  exact .rest habort.calls hrest.disk

theorem inv_inductive (env : Env) : (machine env).Inductive (fun _ _ => True) (Inv env) where
  init _ hs := hs.inv
  step s a s' h _ hst := by
    cases a with
    | pump a => exact h.pump hst
    | restart connected =>
      cases hst
      exact h.restart connected

/-- What the host command bridge has been given is complete and was asked for, once for each command; and
between the steps of the port there are a temporary file, an open descriptor, the state `busy` and an active
request only during a transfer. -/
theorem integrity (h : (machine env).Reachable s) :
    (∀ pre post artifact destination, s.trace = pre ++ .callBridge artifact destination :: post →
      GoodCall env pre artifact destination) ∧
    (s.transfer = none → (disk s.trace).files = [] ∧ (disk s.trace).descriptors = []) ∧
    (s.status.portState = .busy ↔ s.transfer.isSome = true) ∧
    s.status.activeRequestId = (s.transfer.map (·.requestId)).getD 0 := by
  have hinv : Inv env s := (inv_inductive env).reach h
  refine ⟨hinv.calls, fun hnone => ?_, ?_⟩
  · have hdisk := (hinv.resting hnone).disk
    exact ⟨congrArg Disk.files hdisk, congrArg Disk.descriptors hdisk⟩
  · cases ht : s.transfer with
    | none =>
      have hrest := hinv.resting ht
      exact ⟨⟨fun hbusy => absurd hbusy hrest.notBusy, fun hsome => by cases hsome⟩, hrest.active⟩
    | some transfer =>
      have hrecv := (hinv.receiving transfer ht).1
      exact ⟨⟨fun _ => rfl, fun _ => hrecv.busy⟩, hrecv.active⟩

/-! ### A package of two bytes -/

open Brookesia.Usb.Chunking Brookesia.Usb.FrameBytes in
/-- `device`, with a package that is the text `hi`. -/
def packageDevice : Env :=
  { device with
    sha256 := fun data =>
      if data = text "hi" then text "8f434346648f6b96df89dda901c5176b10a6d83961dd3c1ac88b59b2dc327aa4" else emptySha256
    parse := fun line =>
      if line = packageLine then
        .ok (.object [(text "version", .int 1), (text "request_id", .int 2),
          (text "op", .string (text "install_bpk")), (text "size", .int 2),
          (text "sha256", .string (text "8F434346648F6B96DF89DDA901C5176B10A6D83961DD3C1AC88B59B2DC327AA4"))])
      else device.parse line }

def dataFrame : Bytes :=
  [66, 85, 1, 1, 2, 0, 0, 0, 0, 0, 0, 0, 2, 0, 0, 0, 172, 42, 147, 216, 135, 174, 81, 221, 104, 105]

def lastFrame : Bytes := [66, 85, 1, 2, 2, 0, 0, 0, 1, 0, 0, 0, 0, 0, 0, 0, 0, 0, 0, 0, 165, 88, 72, 183]

def packageArtifact : TransferArtifact where
  command := .installBpk
  requestId := 2
  temporaryPath := text "/littlefs/upload/.brookesia_usb/transfer_2.part"
  size := 2
  sha256 := text "8f434346648f6b96df89dda901c5176b10a6d83961dd3c1ac88b59b2dc327aa4"
  overwrite := false

open Brookesia.Usb.Chunking Brookesia.Usb.FrameBytes in
/-- The data frame comes twice, the first time in two parts. -/
def packageRun : List Action :=
  [.pump (.receive (asLine helloLine)), .pump (.receive (asLine packageLine)),
    .pump (.receive (asFrame (dataFrame.take 9))), .pump (.receive (asFrame (dataFrame.drop 9 ++ dataFrame))),
    .pump (.receive (asFrame lastFrame)), .pump .transferTimeout]

open Brookesia.Usb.Chunking Brookesia.Usb.FrameBytes in
set_option maxRecDepth 10000 in
theorem integrity_packageRun : ∃ s, (machine packageDevice).Reachable s ∧
      (∃ pre post artifact destination, s.trace = pre ++ .callBridge artifact destination :: post ∧
        GoodCall packageDevice pre artifact destination) ∧
      s.transfer = none ∧ (disk s.trace).files = [] ∧ (disk s.trace).descriptors = [] := by
  obtain ⟨s, hs, hfacts⟩ := map_eq_some_iff.mp (by decide +kernel :
    ((machine packageDevice).exec ready packageRun).map (fun s => (s.trace[7]?, s.transfer.isNone)) =
      some (some (.callBridge packageArtifact []), true))
  rw [Prod.mk.injEq, isNone_iff_eq_none] at hfacts
  obtain ⟨hcall, hnone⟩ := hfacts
  obtain ⟨hlen, hevent⟩ := List.getElem?_eq_some_iff.mp hcall
  have htrace : s.trace = s.trace.take 7 ++ .callBridge packageArtifact [] :: s.trace.drop 8 := by
    rw [← hevent, ← drop_eq_getElem_cons hlen, take_append_drop]
  have hreach : (machine packageDevice).Reachable s := .exec (.init ⟨rfl, rfl, rfl, rfl⟩) hs
  have h := integrity hreach
  exact ⟨s, hreach, ⟨_, _, _, _, htrace, h.1 _ _ _ _ htrace⟩, hnone, h.2.1 hnone⟩

end Brookesia.Usb.Files
