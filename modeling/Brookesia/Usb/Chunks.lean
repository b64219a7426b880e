import Brookesia.Usb.Buffers

/-! # One chunk

What the port does with a chunk that comes while both buffers are empty: the lemmas `deliver_*`, one for
each thing that a chunk can begin with and what comes behind it. -/

namespace Brookesia.Usb.Chunks

open Filesystem.Path Data.Json Protocol Port List Option
open Buffers
open Impl

variable {env : Env} {s t : Impl} {bytes more line rest : List RxByte}

/-- Nothing is in the buffers. -/
structure Between (s : Impl) : Prop where
  rxBuffer : s.rxBuffer = []
  frameParser : s.frameParser = []

theorem Between.cleared (hs : Between s) : { s with rxBuffer := [], frameParser := [] } = s := by
  obtain ⟨hrx, hp⟩ := hs
  rw [← hp]
  exact congrArg (fun r => { s with rxBuffer := r }) (hp.trans hrx.symm)

/-! ### The loops -/

theorem takeLine_rxBuffer_length (line : List RxByte) : (takeLine env s line).rxBuffer.length ≤ s.rxBuffer.length := by
  rcases takeLine_rxBuffer line with hl | hl
  · exact (congrArg (·.rxBuffer.length) (hl s.rxBuffer)).le
  · exact (congrArg (·.rxBuffer.length) (hl s.rxBuffer)).le.trans (Nat.zero_le _)

def dropLine (env : Env) (s : Impl) : Impl :=
  { (if env.uart then s else s.sendError 0 "invalid_command" "command line is too long") with rxBuffer := [] }

theorem dropLine_handled : (dropLine env s).handled = s.handled := by
  unfold dropLine
  split_ifs <;> rfl

theorem dropLine_transfer : (dropLine env s).transfer = s.transfer := by
  unfold dropLine
  split_ifs <;> rfl

theorem dropLine_frameParser : (dropLine env s).frameParser = s.frameParser := by
  unfold dropLine
  split_ifs <;> rfl

theorem textLoop_turns : ∀ {n m : ℕ} {s : Impl}, s.rxBuffer.length < n → s.rxBuffer.length < m →
    textLoop env n s = textLoop env m s
  | 0, _, _, h, _ => absurd h (Nat.not_lt_zero _)
  | _, 0, _, _, h => absurd h (Nat.not_lt_zero _)
  | n + 1, m + 1, s, hn, hm => by
    unfold textLoop
    cases hsplit : splitLine s.rxBuffer with
    | none => rfl
    | some lr =>
      obtain ⟨line, rest⟩ := lr
      dsimp only
      have hrest : rest.length < s.rxBuffer.length := splitLine_length hsplit
      have ht := @takeLine_rxBuffer_length env { s with rxBuffer := rest } line
      dsimp only at ht
      split_ifs
      · rfl
      · exact textLoop_turns (by omega) (by omega)

def processText (env : Env) (s : Impl) : Impl := textLoop env (s.rxBuffer.length + 1) s

theorem processText_none (h : splitLine s.rxBuffer = none) :
    processText env s = if s.rxBuffer.length > commandBufferLimit then dropLine env s else s := by
  unfold processText textLoop
  rw [h]
  rfl

theorem processText_some (h : splitLine s.rxBuffer = some (line, rest))
    (ht : takeLine env { s with rxBuffer := rest } line = t) :
    processText env s =
      if t.transfer.isSome then { t with frameParser := t.frameParser ++ t.rxBuffer, rxBuffer := [] }
      else processText env t := by
  have hrest : rest.length < s.rxBuffer.length := splitLine_length h
  have hlen := @takeLine_rxBuffer_length env { s with rxBuffer := rest } line
  rw [ht] at hlen
  dsimp only at hlen
  conv_lhs => unfold processText textLoop
  rw [h]
  dsimp only
  rw [ht]
  split_ifs
  · rfl
  · exact textLoop_turns (by omega) (by omega)

theorem handleFrame_frameParser_length (htr : s.transfer ≠ none) (frame : BinaryFrame)
    (r : List RxByte) : (handleFrame env { s with frameParser := r } frame).frameParser.length ≤ r.length := by
  obtain ⟨transfer, ht⟩ := ne_none_iff_exists'.mp htr
  rcases @handleFrame_frameParser env s transfer ht frame with h | ⟨_, hp, h⟩
  · rw [h]
  · rw [h, hp]
    exact Nat.zero_le _

theorem frameLoop_turns : ∀ {n m : ℕ} {s : Impl}, s.frameParser.length < n → s.frameParser.length < m →
    frameLoop env n s = frameLoop env m s
  | 0, _, _, h, _ => absurd h (Nat.not_lt_zero _)
  | _, 0, _, _, h => absurd h (Nat.not_lt_zero _)
  | n + 1, m + 1, s, hn, hm => by
    unfold frameLoop
    split_ifs with hidle
    · rfl
    cases hnext : next env.maxFramePayload s.frameParser with
    | error e => rfl
    | ok found =>
      cases found with
      | none => rfl
      | some fr =>
        obtain ⟨frame, rest⟩ := fr
        dsimp only
        have hrest := next_some_length hnext
        have ht := @handleFrame_frameParser_length env s (by simpa using hidle) frame rest
        exact frameLoop_turns (by omega) (by omega)

def processFrames (env : Env) (s : Impl) : Impl := frameLoop env (s.frameParser.length + 1) s

theorem processFrames_idle (h : s.transfer = none) : processFrames env s = s := by
  unfold processFrames frameLoop
  rw [h]
  rfl

theorem processFrames_error {error : String} (h : s.transfer ≠ none)
    (hnext : next env.maxFramePayload s.frameParser = .error error) :
    processFrames env s = s.failTransfer "bad_frame" error := by
  unfold processFrames frameLoop
  rw [if_neg (by simpa using h), hnext]

theorem processFrames_none (hnext : next env.maxFramePayload s.frameParser = .ok none) : processFrames env s = s := by
  unfold processFrames frameLoop
  rw [hnext]
  exact ite_self _

theorem processFrames_some {frame : BinaryFrame} (h : s.transfer ≠ none)
    (hnext : next env.maxFramePayload s.frameParser = .ok (some (frame, rest))) :
    processFrames env s = processFrames env (handleFrame env { s with frameParser := rest } frame) := by
  have hrest := next_some_length hnext
  have ht := @handleFrame_frameParser_length env s h frame rest
  conv_lhs => unfold processFrames frameLoop
  rw [if_neg (by simpa using h), hnext]
  exact frameLoop_turns (by omega) (by omega)

theorem frameLoop_handled (env : Env) : ∀ (n : ℕ) (s : Impl), s.handled <+: (frameLoop env n s).handled
  | 0, _ => prefix_rfl
  | n + 1, s => by
    unfold frameLoop
    split_ifs
    · exact prefix_rfl
    split
    · next e _ => exact ⟨[], (append_nil _).trans (failTransfer_effect "bad_frame" e).handled.symm⟩
    · exact prefix_rfl
    · next frame rest _ =>
      refine IsPrefix.trans ?_ (frameLoop_handled env n _)
      rw [handleFrame_handled]
      exact prefix_append _ _

/-! ### A line or a frame -/

theorem deliver_text (htr : s.transfer = none) (hs : Between s) (chunk : List RxByte) :
    deliver env s chunk = processText env { s with rxBuffer := chunk } := by
  unfold deliver processRxBuffer
  rw [hs.rxBuffer, nil_append, htr]
  rfl

theorem deliver_frames (htr : s.transfer ≠ none) (hrx : s.rxBuffer = []) {chunk : List RxByte}
    (habort : s.frameParser = [] → abortLine env chunk = none) :
    deliver env s chunk = processFrames env { s with frameParser := s.frameParser ++ chunk } := by
  have hfind : (if s.frameParser = [] then abortLine env chunk else none) = none := by
    split_ifs with hp
    · exact habort hp
    · rfl
  unfold deliver processRxBuffer
  rw [hrx, nil_append, if_pos (by simpa [isSome_iff_ne_none] using htr)]
  dsimp only
  rw [hfind]
  unfold takeFrames processFrames
  dsimp only
  rw [length_append]

theorem abortLine_nil : abortLine env [] = none := rfl

theorem deliver_nil (hs : Between s) : deliver env s [] = s := by
  by_cases htr : s.transfer = none
  · have hrx : { s with rxBuffer := ([] : List RxByte) } = s := by
      rw [← hs.rxBuffer]
    rw [deliver_text htr hs, hrx, processText_none (by rw [hs.rxBuffer]; rfl), hs.rxBuffer]
    rfl
  · rw [deliver_frames htr hs.rxBuffer fun _ => abortLine_nil, append_nil]
    exact processFrames_none (next_of_short (by rw [hs.frameParser]; decide))

theorem deliver_abort (htr : s.transfer ≠ none) (hs : Between s) {chunk : List RxByte}
    {command : JsonObject} (habort : abortLine env chunk = some (line, rest, command)) :
    ∃ accepted, (deliver env s chunk).handled = s.handled ++ [.line line accepted] := by
  unfold deliver processRxBuffer
  rw [hs.rxBuffer, nil_append, if_pos (by simpa [isSome_iff_ne_none] using htr)]
  dsimp only
  rw [hs.frameParser, if_pos rfl, habort]
  exact ⟨_, congrArg (· ++ _) (handleCommand_handlesNothing command).handled⟩

theorem deliver_line {newline : RxByte} (htr : s.transfer = none) (hs : Between s)
    (hline : splitLine line = none) (hnl : newline.value = 10) :
    deliver env s (line ++ [newline]) = takeLine env s line := by
  have hs' : { s with rxBuffer := ([] : List RxByte) } = s := by
    rw [← hs.rxBuffer]
  have hrx := (@takeLine_rxBuffer_length env s line)
  rw [hs.rxBuffer, length_nil, Nat.le_zero, length_eq_zero_iff] at hrx
  have hp := @takeLine_frameParser env s hs.frameParser line
  rw [deliver_text htr hs, processText_some (splitLine_of_line hline hnl) rfl]
  dsimp only
  rw [hs', hrx, append_nil]
  split_ifs
  · rw [← hrx]
  · rw [processText_none (by rw [hrx]; rfl), hrx]
    rfl

theorem Between.takeLine (env : Env) (hs : Between s) (line : List RxByte) : Between (takeLine env s line) := by
  have hrx := (@takeLine_rxBuffer_length env s line)
  rw [hs.rxBuffer, length_nil, Nat.le_zero, length_eq_zero_iff] at hrx
  exact ⟨hrx, takeLine_frameParser hs.frameParser line⟩

theorem Between.handleFrame (env : Env) (hs : Between s) (htr : s.transfer ≠ none) (frame : BinaryFrame) :
    Between (handleFrame env s frame) := by
  have hp := @handleFrame_frameParser_length env s htr frame []
  rw [length_nil, Nat.le_zero, length_eq_zero_iff, ← hs.frameParser] at hp
  exact ⟨handleFrame_rxBuffer hs.rxBuffer frame, hp.trans hs.frameParser⟩

theorem Between.dropLine (hs : Between s) : Between (dropLine env s) :=
  ⟨rfl, dropLine_frameParser.trans hs.frameParser⟩

theorem deliver_frame {frame : BinaryFrame} (htr : s.transfer ≠ none) (hs : Between s)
    (hnext : next env.maxFramePayload bytes = .ok (some (frame, []))) :
    deliver env s bytes = handleFrame env s frame := by
  have hs' : { s with frameParser := ([] : List RxByte) } = s := by
    rw [← hs.frameParser]
  have hp := (hs.handleFrame env htr frame).frameParser
  rw [deliver_frames htr hs.rxBuffer fun _ => abortLine_of_next hnext, hs.frameParser, nil_append,
    @processFrames_some env { s with frameParser := bytes } [] frame htr hnext]
  dsimp only
  rw [hs']
  refine processFrames_none (next_of_short ?_)
  rw [hp]
  decide

theorem deliver_long_line (htr : s.transfer = none) (hs : Between s) (hsplit : splitLine bytes = none)
    (hlen : commandBufferLimit < bytes.length) : deliver env s bytes = dropLine env s := by
  rw [deliver_text htr hs, processText_none hsplit, if_pos hlen]
  unfold dropLine
  split_ifs <;> rfl

/-! ### One byte -/

theorem abortLine_byte (x : RxByte) : abortLine env [x] = none := by
  unfold abortLine splitLine splitLine
  by_cases hx : x.value = 10
  · rw [if_pos]
    simp [hx]
  · rw [if_neg hx]
    split_ifs <;> rfl

theorem deliver_byte_text (env : Env) (htr : s.transfer = none) (hs : Between s) (x : RxByte) :
    (deliver env s [x]).rxBuffer ≠ [] ∨ (deliver env s [x]).handled ≠ s.handled := by
  by_cases hx : x.value = 10
  · right
    obtain ⟨accepted, hhandled⟩ := @takeLine_handled env s []
    have hline : deliver env s [x] = takeLine env s [] := @deliver_line env s [] x htr hs rfl hx
    rw [hline, hhandled]
    simp
  · left
    have hsplit : splitLine [x] = none := splitLine_none_iff.mpr (by simpa using hx)
    rw [deliver_text htr hs, processText_none hsplit]
    dsimp only
    rw [if_neg (by rw [length_singleton]; decide)]
    exact cons_ne_nil _ _

theorem deliver_byte (env : Env) (hs : Between s) (x : RxByte) :
    (deliver env s [x]).rxBuffer ≠ [] ∨ (deliver env s [x]).frameParser ≠ [] ∨
      (deliver env s [x]).handled ≠ s.handled := by
  by_cases htr : s.transfer = none
  · rcases deliver_byte_text env htr hs x with h | h
    · exact .inl h
    · exact .inr (.inr h)
  · refine .inr (.inl ?_)
    rw [deliver_frames htr hs.rxBuffer fun _ => abortLine_byte x, hs.frameParser, nil_append,
      processFrames_none (next_of_short (by show 1 < frameHeaderSize; decide))]
    exact cons_ne_nil _ _

/-! ### What comes behind a line or a frame -/

theorem takeLine_leaves (hrx : (takeLine env { s with rxBuffer := rest } line).rxBuffer = rest) :
    takeLine env { s with rxBuffer := rest } line = { takeLine env s line with rxBuffer := rest } := by
  rcases @takeLine_rxBuffer env s line with hl | hl
  · exact hl rest
  · have hnil : ([] : List RxByte) = rest := (congrArg rxBuffer (hl rest)).symm.trans hrx
    rw [hl, hnil]

/-- A line that leaves what is behind it leaves a part of that. -/
theorem takeLine_leaves_part (h : (takeLine env { s with rxBuffer := rest ++ more } line).rxBuffer = rest ++ more) :
    (takeLine env { s with rxBuffer := rest } line).rxBuffer = rest := by
  rcases @takeLine_rxBuffer env s line with hl | hl
  · rw [hl]
  · rw [hl] at h ⊢
    have hnil : rest = [] := (append_eq_nil_iff.mp h.symm).1
    exact hnil.symm

theorem deliver_line_idle {newline : RxByte} (htr : s.transfer = none) (hs : Between s)
    (hline : splitLine line = none) (hnl : newline.value = 10)
    (hrx : (takeLine env { s with rxBuffer := rest } line).rxBuffer = rest)
    (hidle : (takeLine env s line).transfer = none) :
    deliver env s (line ++ newline :: rest) = deliver env (takeLine env s line) rest := by
  have ht := hs.takeLine env line
  have htaken : takeLine env { s with rxBuffer := rest } line = { takeLine env s line with rxBuffer := rest } :=
    takeLine_leaves hrx
  rw [deliver_text htr hs, deliver_text hidle ht,
    @processText_some env { s with rxBuffer := line ++ newline :: rest } _ _ _ (splitLine_of_line hline hnl) htaken]
  exact if_neg (by simp [hidle])

theorem deliver_line_busy {newline : RxByte} (htr : s.transfer = none) (hs : Between s)
    (hline : splitLine line = none) (hnl : newline.value = 10)
    (hrx : (takeLine env { s with rxBuffer := rest } line).rxBuffer = rest)
    (hbusy : (takeLine env s line).transfer ≠ none) :
    deliver env s (line ++ newline :: rest) = { takeLine env s line with frameParser := rest } := by
  have ht := hs.takeLine env line
  have htaken : takeLine env { s with rxBuffer := rest } line = { takeLine env s line with rxBuffer := rest } :=
    takeLine_leaves hrx
  rw [deliver_text htr hs, @processText_some env { s with rxBuffer := line ++ newline :: rest } _ _ _
      (splitLine_of_line hline hnl) htaken,
    if_pos (by simpa [isSome_iff_ne_none] using hbusy)]
  dsimp only
  rw [ht.frameParser, nil_append, ← ht.rxBuffer]

theorem deliver_line_clears {newline : RxByte} (htr : s.transfer = none) (hs : Between s)
    (hline : splitLine line = none) (hnl : newline.value = 10)
    (hclears : ∀ r, takeLine env { s with rxBuffer := r } line = { takeLine env s line with rxBuffer := [] }) :
    deliver env s (line ++ newline :: rest) = takeLine env s line := by
  have ht := hs.takeLine env line
  have htaken : takeLine env { s with rxBuffer := rest } line = takeLine env s line :=
    (hclears rest).trans (by rw [← ht.rxBuffer])
  rw [deliver_text htr hs, @processText_some env { s with rxBuffer := line ++ newline :: rest } _ _ _
      (splitLine_of_line hline hnl) htaken]
  split_ifs
  · rw [ht.frameParser, ht.rxBuffer]
    exact ht.cleared
  · rw [processText_none (by rw [ht.rxBuffer]; rfl), ht.rxBuffer]
    rfl

/-- A frame and what comes behind it, while the transfer goes on. -/
theorem deliver_frame_rest {frame : BinaryFrame} (htr : s.transfer ≠ none) (hs : Between s)
    (hnext : next env.maxFramePayload bytes = .ok (some (frame, rest)))
    (hgoes : (handleFrame env s frame).transfer ≠ none) (habort : abortLine env rest = none) :
    deliver env s bytes = deliver env (handleFrame env s frame) rest := by
  obtain ⟨transfer, ht⟩ := ne_none_iff_exists'.mp htr
  have hfr := hs.handleFrame env htr frame
  rw [deliver_frames htr hs.rxBuffer fun _ => abortLine_of_next hnext, hs.frameParser, nil_append,
    @processFrames_some env { s with frameParser := bytes } rest frame htr hnext,
    deliver_frames hgoes hfr.rxBuffer fun _ => habort, hfr.frameParser, nil_append]
  rcases @handleFrame_frameParser env s transfer ht frame with h | h
  · exact congrArg _ (h rest)
  · exact absurd h.1 hgoes

/-! ### The beginning of a line or a frame -/

/-- Bytes without a newline are part of the line that they begin. -/
theorem length_le_line (h : splitLine bytes = none) (hsplit : splitLine (bytes ++ more) = some (line, rest)) :
    bytes.length ≤ line.length := by
  obtain ⟨newline, hnl, heq⟩ := splitLine_some hsplit
  rcases append_eq_append_iff.mp heq with ⟨a, rfl, _⟩ | ⟨a, rfl, ha⟩
  · rw [length_append]
    omega
  · cases a with
    | nil => simp
    | cons b a =>
      simp only [cons_append, cons.injEq] at ha
      rw [splitLine_none_iff] at h
      exact absurd hnl (ha.1 ▸ h b (by simp))

theorem deliver_begun_line {chunk chunk' : List RxByte} (htr : s.transfer = none) (hs : Between s)
    (hsplit : splitLine chunk = none) (hlen : chunk.length ≤ commandBufferLimit) :
    deliver env (deliver env s chunk) chunk' = deliver env s (chunk ++ chunk') := by
  have hfst : deliver env s chunk = { s with rxBuffer := chunk } := by
    rw [deliver_text htr hs, processText_none hsplit, if_neg (by dsimp only; omega)]
  rw [hfst]
  unfold deliver
  rw [hs.rxBuffer]
  rfl

theorem deliver_begun_frame {chunk chunk' : List RxByte} (htr : s.transfer ≠ none) (hs : Between s)
    (hchunk : chunk ≠ []) (habort : abortLine env (chunk ++ chunk') = none)
    (hnext : next env.maxFramePayload chunk = .ok none) :
    deliver env (deliver env s chunk) chunk' = deliver env s (chunk ++ chunk') := by
  have hfst : deliver env s chunk = { s with frameParser := chunk } := by
    rw [deliver_frames htr hs.rxBuffer fun _ => abortLine_none_of_append habort, hs.frameParser]
    exact processFrames_none hnext
  rw [hfst, deliver_frames htr hs.rxBuffer fun _ => habort, hs.frameParser]
  exact deliver_frames (s := { s with frameParser := chunk }) htr hs.rxBuffer fun h => absurd h hchunk

end Brookesia.Usb.Chunks
