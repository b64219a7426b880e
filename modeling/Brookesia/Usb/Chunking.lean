import Brookesia.Usb.Chunks

/-! # How the stream is cut

Whether it matters how the bytes that the port receives are cut into chunks.

* `Indifferent`: up to every place in the stream, all ways of cutting it lead to the same state, with the
  same commands and frames handled and the same responses.
* `Steady`: the streams for which this is so, which is `indifferent_iff`. -/

namespace Brookesia.Usb.Chunking

open Filesystem.Path Data.Json Protocol Port List
open Buffers Chunks
open Impl

variable {env : Env} {s t : Impl} {bytes more line rest : List RxByte}

def run (env : Env) (s : Impl) (chunks : List (List RxByte)) : Impl := chunks.foldl (deliver env) s

def IsCut (chunks : List (List RxByte)) (stream : List RxByte) : Prop :=
  chunks.flatten = stream ∧ ∀ chunk ∈ chunks, chunk ≠ []

def Indifferent (env : Env) (s : Impl) (stream : List RxByte) : Prop :=
  ∀ received, received <+: stream → ∀ cuts cuts', IsCut cuts received → IsCut cuts' received →
    run env s cuts = run env s cuts'

/-- The streams for which no cut can go wrong.

* A line is not longer than the limit, and the last one, without a newline yet, not longer than its first
  excess byte. A line that clears the buffer is the last thing in the stream.
* After a line that starts a transfer come no abort line and no frame, not even a bad header.
* During a transfer there is no abort line between two frames; a bad frame, and a frame that ends the
  transfer, are the last thing in the stream. -/
inductive Steady (env : Env) : Impl → List RxByte → Prop
  | openLine {s : Impl} {bytes : List RxByte} (htransfer : s.transfer = none)
      (hsplit : splitLine bytes = none) (hlength : bytes.length ≤ commandBufferLimit + 1) : Steady env s bytes
  | line {s : Impl} {bytes line rest : List RxByte} (htransfer : s.transfer = none)
      (hsplit : splitLine bytes = some (line, rest)) (hlength : line.length ≤ commandBufferLimit)
      (hrx : (takeLine env { s with rxBuffer := rest } line).rxBuffer = rest)
      (hidle : (takeLine env s line).transfer = none) (hrest : Steady env (takeLine env s line) rest) :
      Steady env s bytes
  | transferLine {s : Impl} {bytes line rest : List RxByte} (htransfer : s.transfer = none)
      (hsplit : splitLine bytes = some (line, rest)) (hlength : line.length ≤ commandBufferLimit)
      (hrx : (takeLine env { s with rxBuffer := rest } line).rxBuffer = rest)
      (hbusy : (takeLine env s line).transfer ≠ none) (habort : abortLine env rest = none)
      (hnext : next env.maxFramePayload rest = .ok none) : Steady env s bytes
  | openFrame {s : Impl} {bytes : List RxByte} (htransfer : s.transfer ≠ none)
      (habort : abortLine env bytes = none) (hnext : next env.maxFramePayload bytes = .ok none) :
      Steady env s bytes
  | badFrame {s : Impl} {bytes : List RxByte} {error : String} (htransfer : s.transfer ≠ none)
      (habort : abortLine env bytes = none) (hnext : next env.maxFramePayload bytes = .error error)
      (hlast : next env.maxFramePayload bytes.dropLast = .ok none) : Steady env s bytes
  | lastFrame {s : Impl} {bytes : List RxByte} {frame : BinaryFrame} (htransfer : s.transfer ≠ none)
      (hnext : next env.maxFramePayload bytes = .ok (some (frame, [])))
      (hends : (handleFrame env s frame).transfer = none) : Steady env s bytes
  | frame {s : Impl} {bytes rest : List RxByte} {frame : BinaryFrame} (htransfer : s.transfer ≠ none)
      (hnext : next env.maxFramePayload bytes = .ok (some (frame, rest)))
      (hgoes : (handleFrame env s frame).transfer ≠ none) (hrest : Steady env (handleFrame env s frame) rest) :
      Steady env s bytes

/-! ### Parts of a steady stream -/

theorem Steady.prefix_ {stream : List RxByte} (h : Steady env s stream) :
    ∀ {bytes more : List RxByte}, stream = bytes ++ more → Steady env s bytes := by
  induction h with
  | openLine htr hsplit hlen =>
    rintro bytes more rfl
    refine .openLine htr (splitLine_none_of_append hsplit) ?_
    rw [length_append] at hlen
    omega
  | @line s stream line rest htr hsplit hlen hrx hidle hrest ih =>
    rintro bytes more rfl
    obtain hbytes | ⟨r, hbytes, rfl⟩ := splitLine_append_cases hsplit
    · exact .openLine htr hbytes ((length_le_line hbytes hsplit).trans (by omega))
    · exact .line htr hbytes hlen (takeLine_leaves_part hrx) hidle (ih rfl)
  | @transferLine s stream line rest htr hsplit hlen hrx hbusy habort hnext =>
    rintro bytes more rfl
    obtain hbytes | ⟨r, hbytes, rfl⟩ := splitLine_append_cases hsplit
    · exact .openLine htr hbytes ((length_le_line hbytes hsplit).trans (by omega))
    · exact .transferLine htr hbytes hlen (takeLine_leaves_part hrx) hbusy
        (abortLine_none_of_append habort) (next_none_of_append hnext)
  | openFrame htr habort hnext =>
    rintro bytes more rfl
    exact .openFrame htr (abortLine_none_of_append habort) (next_none_of_append hnext)
  | badFrame htr habort hnext hlast =>
    rintro bytes more rfl
    cases more using List.reverseRecOn with
    | nil =>
      rw [append_nil] at habort hnext hlast
      exact .badFrame htr habort hnext hlast
    | append_singleton more x _ =>
      rw [← append_assoc, dropLast_concat] at hlast
      exact .openFrame htr (abortLine_none_of_append habort) (next_none_of_append hlast)
  | lastFrame htr hnext hends =>
    rintro bytes more rfl
    have habort := abortLine_none_of_append (abortLine_of_next hnext)
    obtain hbytes | ⟨r, hbytes, hemp⟩ := next_append_cases hnext
    · exact .openFrame htr habort hbytes
    · obtain ⟨rfl, rfl⟩ := append_eq_nil_iff.mp hemp.symm
      exact .lastFrame htr hbytes hends
  | @frame s stream rest frame htr hnext hgoes hrest ih =>
    rintro bytes more rfl
    have habort := abortLine_none_of_append (abortLine_of_next hnext)
    obtain hbytes | ⟨r, hbytes, rfl⟩ := next_append_cases hnext
    · exact .openFrame htr habort hbytes
    · exact .frame htr hbytes hgoes (ih rfl)

/-! ### Steady streams can be cut anywhere -/

theorem Steady.abortLine_eq_none (h : Steady env s bytes) (htr : s.transfer ≠ none) : abortLine env bytes = none := by
  cases h with
  | openLine hidle | line hidle | transferLine hidle => exact absurd hidle htr
  | openFrame _ habort | badFrame _ habort => exact habort
  | lastFrame _ hnext | frame _ hnext => exact abortLine_of_next hnext

theorem Steady.deliver_append {stream : List RxByte} (h : Steady env s stream) :
    ∀ {chunk chunk' : List RxByte}, Between s → stream = chunk ++ chunk' → chunk ≠ [] → chunk' ≠ [] →
      deliver env (deliver env s chunk) chunk' = deliver env s (chunk ++ chunk') := by
  induction h with
  | openLine htr hsplit hlen =>
    rintro chunk chunk' hs rfl hchunk hchunk'
    refine deliver_begun_line htr hs (splitLine_none_of_append hsplit) ?_
    have := length_pos_iff.mpr hchunk'
    rw [length_append] at hlen
    omega
  | @line s stream line rest htr hsplit hlen hrx hidle hrest ih =>
    rintro chunk chunk' hs rfl hchunk hchunk'
    obtain hfst | ⟨r, hfst, rfl⟩ := splitLine_append_cases hsplit
    · exact deliver_begun_line htr hs hfst ((length_le_line hfst hsplit).trans hlen)
    · obtain ⟨newline, hnl, rfl⟩ := splitLine_some hfst
      have hline := splitLine_line hfst
      rw [append_assoc, cons_append, deliver_line_idle htr hs hline hnl hrx hidle,
        deliver_line_idle htr hs hline hnl (takeLine_leaves_part hrx) hidle]
      by_cases hr : r = []
      · rw [hr, deliver_nil (hs.takeLine env line)]
        rfl
      · exact ih (hs.takeLine env line) rfl hr hchunk'
  | @transferLine s stream line rest htr hsplit hlen hrx hbusy habort hnext =>
    rintro chunk chunk' hs rfl hchunk hchunk'
    obtain hfst | ⟨r, hfst, rfl⟩ := splitLine_append_cases hsplit
    · exact deliver_begun_line htr hs hfst ((length_le_line hfst hsplit).trans hlen)
    · obtain ⟨newline, hnl, rfl⟩ := splitLine_some hfst
      have hline := splitLine_line hfst
      rw [append_assoc, cons_append, deliver_line_busy htr hs hline hnl hrx hbusy,
        deliver_line_busy htr hs hline hnl (takeLine_leaves_part hrx) hbusy]
      have hemp : r = [] → abortLine env chunk' = none := by
        rintro rfl
        exact habort
      rw [@deliver_frames env { takeLine env s line with frameParser := r } hbusy (hs.takeLine env line).rxBuffer _ hemp]
      exact processFrames_none hnext
  | openFrame htr habort hnext =>
    rintro chunk chunk' hs rfl hchunk _
    exact deliver_begun_frame htr hs hchunk habort (next_none_of_append hnext)
  | badFrame htr habort hnext hlast =>
    rintro chunk chunk' hs rfl hchunk hchunk'
    rw [dropLast_append_of_ne_nil hchunk'] at hlast
    exact deliver_begun_frame htr hs hchunk habort (next_none_of_append hlast)
  | lastFrame htr hnext hends =>
    rintro chunk chunk' hs rfl hchunk hchunk'
    have habort := abortLine_of_next hnext
    obtain hfst | ⟨r, hfst, hemp⟩ := next_append_cases hnext
    · exact deliver_begun_frame htr hs hchunk habort hfst
    · exact absurd (append_eq_nil_iff.mp hemp.symm).2 hchunk'
  | @frame s stream rest frame htr hnext hgoes hrest ih =>
    rintro chunk chunk' hs rfl hchunk hchunk'
    have habort := abortLine_of_next hnext
    obtain hfst | ⟨r, hfst, rfl⟩ := next_append_cases hnext
    · exact deliver_begun_frame htr hs hchunk habort hfst
    · have hnone := hrest.abortLine_eq_none hgoes
      rw [deliver_frame_rest htr hs hnext hgoes hnone,
        deliver_frame_rest htr hs hfst hgoes (abortLine_none_of_append hnone)]
      by_cases hr : r = []
      · rw [hr, deliver_nil (hs.handleFrame env htr frame)]
        rfl
      · exact ih (hs.handleFrame env htr frame) rfl hr hchunk'

theorem Steady.run_eq {stream : List RxByte} (h : Steady env s stream) (hs : Between s)
    {cuts : List (List RxByte)} (hcuts : IsCut cuts stream) : run env s cuts = deliver env s stream := by
  induction cuts using List.reverseRecOn generalizing stream with
  | nil =>
    rw [← hcuts.1]
    exact (deliver_nil hs).symm
  | append_singleton cuts chunk ih =>
    obtain ⟨rfl, hne⟩ := hcuts
    rw [flatten_append, flatten_singleton] at h ⊢
    have hrun := ih (h.prefix_ rfl) ⟨rfl, fun c hc => hne c (mem_append_left _ hc)⟩
    have hlast : run env s (cuts ++ [chunk]) = deliver env (run env s cuts) chunk := by
      unfold run
      rw [foldl_append]
      rfl
    rw [hlast, hrun]
    by_cases hfst : cuts.flatten = []
    · rw [hfst, deliver_nil hs]
      rfl
    · exact h.deliver_append hs rfl hfst (hne chunk (by simp))

/-! ### Streams that can be cut anywhere are steady -/

theorem Indifferent.tail (h : Indifferent env s (bytes ++ rest)) (hbytes : bytes ≠ []) :
    Indifferent env (deliver env s bytes) rest := by
  have hcons : ∀ {received cuts}, IsCut cuts received → IsCut (bytes :: cuts) (bytes ++ received) := by
    intro received cuts hcuts
    exact ⟨by rw [flatten_cons, hcuts.1], forall_mem_cons.mpr ⟨hbytes, hcuts.2⟩⟩
  rintro received ⟨more, rfl⟩ cuts cuts' hcuts hcuts'
  have hreceived : bytes ++ received <+: bytes ++ (received ++ more) := ⟨more, by rw [append_assoc]⟩
  exact h _ hreceived (bytes :: cuts) (bytes :: cuts') (hcons hcuts) (hcons hcuts')

theorem Indifferent.two (rest : List RxByte) (h : Indifferent env s (bytes ++ more ++ rest)) (hbytes : bytes ≠ [])
    (hmore : more ≠ []) : deliver env (deliver env s bytes) more = deliver env s (bytes ++ more) := by
  have htwo : IsCut [bytes, more] (bytes ++ more) := ⟨by simp, by simp [hbytes, hmore]⟩
  have hone : IsCut [bytes ++ more] (bytes ++ more) := ⟨by simp, by simp [hbytes]⟩
  exact h _ (prefix_append _ rest) _ _ htwo hone

theorem Indifferent.length_le (h : Indifferent env s bytes) (htr : s.transfer = none) (hs : Between s)
    (hsplit : splitLine bytes = none) : bytes.length ≤ commandBufferLimit + 1 := by
  by_contra hlong
  have hbytes : bytes = bytes.take (commandBufferLimit + 1) ++ bytes.drop (commandBufferLimit + 1) :=
    (take_append_drop ..).symm
  have htake : (bytes.take (commandBufferLimit + 1)).length = commandBufferLimit + 1 := by
    rw [length_take]
    omega
  match hdrop : bytes.drop (commandBufferLimit + 1) with
  | [] => exact hlong (drop_eq_nil_iff.mp hdrop)
  | x :: more =>
    generalize bytes.take (commandBufferLimit + 1) = first at hbytes htake
    rw [hdrop] at hbytes
    subst hbytes
    have hfst := splitLine_none_of_append hsplit
    have hx : x.value ≠ 10 := splitLine_none_iff.mp hsplit x (by simp)
    have htwo : deliver env (deliver env s first) [x] = deliver env s (first ++ [x]) := by
      refine Indifferent.two more ?_ (by rintro rfl; cases htake) (cons_ne_nil x [])
      rwa [append_assoc]
    have hboth : splitLine (first ++ [x]) = none := by
      refine @splitLine_none_of_append _ more ?_
      rwa [append_assoc]
    have hsgl : splitLine [x] = none := splitLine_none_iff.mpr (by simpa using hx)
    rw [deliver_long_line htr hs hfst (by omega), deliver_long_line htr hs hboth (by rw [length_append]; omega),
      deliver_text (dropLine_transfer.trans htr) hs.dropLine, processText_none hsgl,
      if_neg (by rw [length_singleton]; decide)] at htwo
    exact cons_ne_nil x [] (congrArg rxBuffer htwo)

theorem Indifferent.line_length_le {newline : RxByte} (h : Indifferent env s (line ++ newline :: rest))
    (htr : s.transfer = none) (hs : Between s) (hline : splitLine line = none)
    (hnl : newline.value = 10) : line.length ≤ commandBufferLimit := by
  by_contra hlong
  have hne : line ≠ [] := by
    rintro rfl
    exact hlong (Nat.zero_le _)
  have htwo : deliver env (deliver env s line) [newline] = deliver env s (line ++ [newline]) := by
    refine Indifferent.two rest ?_ hne (cons_ne_nil newline [])
    rwa [append_assoc]
  have hdrop : deliver env (dropLine env s) [newline] = takeLine env (dropLine env s) [] :=
    @deliver_line env _ [] newline (dropLine_transfer.trans htr) hs.dropLine rfl hnl
  rw [deliver_long_line htr hs hline (by omega), hdrop, deliver_line htr hs hline hnl] at htwo
  obtain ⟨accepted, hhandled⟩ := @takeLine_handled env s line
  obtain ⟨accepted', hhandled'⟩ := @takeLine_handled env (dropLine env s) []
  have hlast := congrArg handled htwo
  rw [hhandled, hhandled', dropLine_handled, append_cancel_left_eq] at hlast
  simp only [cons.injEq, Handled.line.injEq] at hlast
  exact hne hlast.1.1.symm

theorem Indifferent.line_leaves {newline : RxByte} (h : Indifferent env s (line ++ newline :: rest))
    (htr : s.transfer = none) (hs : Between s) (hline : splitLine line = none)
    (hnl : newline.value = 10) : (takeLine env { s with rxBuffer := rest } line).rxBuffer = rest := by
  rcases @takeLine_rxBuffer env s line with hl | hl
  · rw [hl]
  rw [hl]
  cases rest with
  | nil => rfl
  | cons x more =>
    have htwo : deliver env (deliver env s (line ++ [newline])) [x] = deliver env s (line ++ [newline] ++ [x]) := by
      refine Indifferent.two more ?_ (by simp) (cons_ne_nil x [])
      simpa using h
    rw [deliver_line htr hs hline hnl, append_assoc, cons_append, nil_append,
      deliver_line_clears htr hs hline hnl hl] at htwo
    have ht := hs.takeLine env line
    rcases deliver_byte env ht x with hx | hx | hx
    · exact absurd ((congrArg rxBuffer htwo).trans ht.rxBuffer) hx
    · exact absurd ((congrArg frameParser htwo).trans ht.frameParser) hx
    · exact absurd (congrArg handled htwo) hx

theorem Indifferent.rest_of_transfer {newline : RxByte} (h : Indifferent env s (line ++ newline :: rest))
    (htr : s.transfer = none) (hs : Between s) (hline : splitLine line = none)
    (hnl : newline.value = 10)
    (hrx : (takeLine env { s with rxBuffer := rest } line).rxBuffer = rest)
    (hbusy : (takeLine env s line).transfer ≠ none) :
    abortLine env rest = none ∧ next env.maxFramePayload rest = .ok none := by
  by_cases hrest : rest = []
  · subst hrest
    exact ⟨abortLine_nil, next_of_short (by decide)⟩
  have ht := hs.takeLine env line
  have htwo : deliver env (deliver env s (line ++ [newline])) rest = deliver env s (line ++ [newline] ++ rest) := by
    refine Indifferent.two [] ?_ (by simp) hrest
    simpa using h
  rw [deliver_line htr hs hline hnl, append_assoc, cons_append, nil_append,
    deliver_line_busy htr hs hline hnl hrx hbusy] at htwo
  have habort : abortLine env rest = none := by
    match habort : abortLine env rest with
    | none => rfl
    | some (l, r, command) =>
      obtain ⟨accepted, hhandled⟩ := deliver_abort hbusy ht habort
      rw [htwo] at hhandled
      simp at hhandled
  refine ⟨habort, ?_⟩
  rw [deliver_frames hbusy ht.rxBuffer fun _ => habort, ht.frameParser, nil_append] at htwo
  match hnext : next env.maxFramePayload rest with
  | .ok none => rfl
  | .error e =>
    rw [@processFrames_error env { takeLine env s line with frameParser := rest } e hbusy hnext] at htwo
    exact absurd ((congrArg transfer htwo).symm.trans (failTransfer_transfer "bad_frame" e)) hbusy
  | .ok (some (f, r)) =>
    rw [@processFrames_some env { takeLine env s line with frameParser := rest } r f hbusy hnext] at htwo
    have hlonger := frameLoop_handled env
      ((handleFrame env { takeLine env s line with frameParser := r } f).frameParser.length + 1)
      (handleFrame env { takeLine env s line with frameParser := r } f)
    have hlen := hlonger.length_le
    have hsame := congrArg (·.handled.length) htwo
    unfold processFrames at hsame
    rw [handleFrame_handled, length_append] at hlen
    dsimp only at hlen hsame
    rw [hsame, length_singleton] at hlen
    omega

theorem Indifferent.abortLine_eq_none (h : Indifferent env s bytes) (htr : s.transfer ≠ none)
    (hs : Between s) : abortLine env bytes = none := by
  match habort : abortLine env bytes with
  | none => rfl
  | some (l, r, command) =>
    cases bytes with
    | nil => cases habort
    | cons x more =>
    by_cases hmore : more = []
    · subst hmore
      rw [abortLine_byte] at habort
      cases habort
    have hx : x.value = 123 := abortLine_head habort
    obtain ⟨accepted, hhandled⟩ := deliver_abort htr hs habort
    have htwo : deliver env (deliver env s [x]) more = deliver env s ([x] ++ more) :=
      Indifferent.two [] (by simpa using h) (cons_ne_nil x []) hmore
    have hfst : deliver env s [x] = { s with frameParser := [x] } := by
      rw [deliver_frames htr hs.rxBuffer fun _ => abortLine_byte x, hs.frameParser]
      exact processFrames_none (next_of_short (by show 1 < frameHeaderSize; decide))
    rw [hfst, deliver_frames (s := { s with frameParser := [x] }) htr hs.rxBuffer
      fun h => absurd h (cons_ne_nil x [])] at htwo
    have hsame : (processFrames env { s with frameParser := [x] ++ more }).handled = s.handled := by
      match hnext : next env.maxFramePayload ([x] ++ more) with
      | .ok none => rw [processFrames_none hnext]
      | .error e =>
        rw [@processFrames_error env { s with frameParser := [x] ++ more } e htr hnext]
        exact (failTransfer_effect "bad_frame" e).handled
      | .ok (some (f, r)) =>
        have hmagic := next_some_head hnext
        simp [hx] at hmagic
    have hlast := congrArg handled htwo
    rw [hsame] at hlast
    change s.handled = (deliver env s (x :: more)).handled at hlast
    rw [hhandled] at hlast
    simp at hlast

theorem Indifferent.badFrame_last {error : String} (h : Indifferent env s bytes) (htr : s.transfer ≠ none)
    (hs : Between s) (habort : abortLine env bytes = none)
    (hnext : next env.maxFramePayload bytes = .error error) :
    next env.maxFramePayload bytes.dropLast = .ok none := by
  cases bytes using List.reverseRecOn with
  | nil => exact next_of_short (by decide)
  | append_singleton bytes x _ =>
  rw [dropLast_concat]
  match hfst : next env.maxFramePayload bytes with
  | .ok none => rfl
  | .ok (some (f, r)) => rw [next_append_some hfst] at hnext; cases hnext
  | .error e =>
    have hne : bytes ≠ [] := by
      rintro rfl
      rw [next_of_short (by decide)] at hfst
      cases hfst
    have htwo : deliver env (deliver env s bytes) [x] = deliver env s (bytes ++ [x]) :=
      Indifferent.two [] (by rwa [append_nil]) hne (cons_ne_nil x [])
    have hfails : ∀ {r}, abortLine env r = none → next env.maxFramePayload r = .error e →
        deliver env s r = s.failTransfer "bad_frame" e := by
      intro r hr hbad
      rw [deliver_frames htr hs.rxBuffer fun _ => hr, hs.frameParser, nil_append,
        @processFrames_error env { s with frameParser := r } e htr hbad]
      exact failTransfer_frameParser "bad_frame" e r
    rw [hfails (abortLine_none_of_append habort) hfst, hfails habort (next_append_error hfst)] at htwo
    obtain ⟨hrx, hp⟩ := failTransfer_clears (s := s) "bad_frame" e
    rcases deliver_byte_text env (failTransfer_transfer (s := s) "bad_frame" e) ⟨hrx, hp⟩ x with hx | hx
    · exact absurd ((congrArg rxBuffer htwo).trans hrx) hx
    · exact absurd (congrArg handled htwo) hx

theorem Indifferent.lastFrame_rest {frame : BinaryFrame} (h : Indifferent env s bytes)
    (htr : s.transfer ≠ none) (hs : Between s)
    (hnext : next env.maxFramePayload bytes = .ok (some (frame, rest)))
    (hends : (handleFrame env s frame).transfer = none) : rest = [] := by
  obtain ⟨first, rfl, hfst, _, hsgl⟩ := next_some_split hnext
  cases rest with
  | nil => rfl
  | cons x more =>
    have hne : first ≠ [] := by
      rintro rfl
      cases hfst
    have htwo : deliver env (deliver env s first) [x] = deliver env s (first ++ [x]) :=
      Indifferent.two more (by simpa using h) hne (cons_ne_nil x [])
    have hfr := hs.handleFrame env htr frame
    obtain ⟨transfer, ht⟩ := Option.ne_none_iff_exists'.mp htr
    have hboth := @next_append_some _ _ [x] _ _ hsgl
    have hright : (deliver env s (first ++ [x])).rxBuffer = [] ∧
        (deliver env s (first ++ [x])).handled = (handleFrame env s frame).handled := by
      rw [deliver_frames htr hs.rxBuffer fun _ => abortLine_of_next hboth, hs.frameParser, nil_append,
        @processFrames_some env { s with frameParser := first ++ [x] } _ frame htr hboth]
      dsimp only
      rcases @handleFrame_frameParser env s transfer ht frame with hl | ⟨_, _, hl⟩
      · rw [hl, @processFrames_idle env { handleFrame env s frame with frameParser := [] ++ [x] } hends]
        exact ⟨hfr.rxBuffer, rfl⟩
      · rw [hl, processFrames_idle hends]
        exact ⟨hfr.rxBuffer, rfl⟩
    rw [deliver_frame htr hs hsgl] at htwo
    rw [← htwo] at hright
    rcases deliver_byte_text env hends hfr x with hx | hx
    · exact absurd hright.1 hx
    · exact absurd hright.2 hx

theorem Indifferent.steady : ∀ {bytes : List RxByte} {s : Impl}, Indifferent env s bytes → Between s →
    Steady env s bytes := by
  intro bytes
  induction hn : bytes.length using Nat.strong_induction_on generalizing bytes with
  | _ n ih =>
  subst hn
  intro s h hs
  by_cases htr : s.transfer = none
  · match hsplit : splitLine bytes with
    | none => exact .openLine htr hsplit (h.length_le htr hs hsplit)
    | some (line, rest) =>
      have hshorter := splitLine_length hsplit
      have hline := splitLine_line hsplit
      obtain ⟨newline, hnl, hbytes⟩ := splitLine_some hsplit
      have hcut := h
      rw [hbytes] at hcut
      have hlen := hcut.line_length_le htr hs hline hnl
      have hrx := hcut.line_leaves htr hs hline hnl
      by_cases hidle : (takeLine env s line).transfer = none
      · refine .line htr hsplit hlen hrx hidle (ih _ hshorter rfl ?_ (hs.takeLine env line))
        rw [← deliver_line htr hs hline hnl]
        exact Indifferent.tail (by simpa using hcut) (by simp)
      · obtain ⟨habort, hnext⟩ := hcut.rest_of_transfer htr hs hline hnl hrx hidle
        exact .transferLine htr hsplit hlen hrx hidle habort hnext
  · have habort := h.abortLine_eq_none htr hs
    match hnext : next env.maxFramePayload bytes with
    | .ok none => exact .openFrame htr habort hnext
    | .error error => exact .badFrame htr habort hnext (h.badFrame_last htr hs habort hnext)
    | .ok (some (frame, rest)) =>
      by_cases hends : (handleFrame env s frame).transfer = none
      · obtain rfl := h.lastFrame_rest htr hs hnext hends
        exact .lastFrame htr hnext hends
      · have hshorter := next_some_length hnext
        obtain ⟨first, hbytes, hfst, _, hsgl⟩ := next_some_split hnext
        refine .frame htr hnext hends (ih _ hshorter rfl ?_ (hs.handleFrame env htr frame))
        rw [← deliver_frame htr hs hsgl]
        rw [hbytes] at h
        exact h.tail (by rintro rfl; cases hfst)

/-- It does not matter how a stream is cut into chunks exactly if it is steady. -/
theorem indifferent_iff {stream : List RxByte} (hs : Between s) : Indifferent env s stream ↔ Steady env s stream := by
  refine ⟨fun h => h.steady hs, ?_⟩
  rintro h received ⟨more, rfl⟩ cuts cuts' hcuts hcuts'
  have hreceived := h.prefix_ rfl
  rw [hreceived.run_eq hs hcuts, hreceived.run_eq hs hcuts']

/-! ### An END frame behind the line of its command -/

def emptySha256 : Bytes := text "e3b0c44298fc1c149afbf4c8996fb92427ae41e4649b934ca495991b7852b855"

def helloLine : Bytes := text "\x7b\"version\":1,\"request_id\":1,\"op\":\"hello\"\x7d"

/-- The line that starts the transfer of an empty package. -/
def installLine : Bytes :=
  text "\x7b\"version\":1,\"request_id\":2,\"op\":\"install_bpk\",\"size\":0,\"sha256\":\"" ++ emptySha256 ++
    text "\"\x7d"

def endFrame : Bytes := [66, 85, 1, 2, 2, 0, 0, 0, 0, 0, 0, 0, 0, 0, 0, 0, 0, 0, 0, 0, 202, 20, 237, 44]

def parseLine (line : Bytes) : Except String JsonValue :=
  if line = helloLine then
    .ok (.object [(text "version", .int 1), (text "request_id", .int 1), (text "op", .string (text "hello"))])
  else if line = installLine then
    .ok (.object [(text "version", .int 1), (text "request_id", .int 2), (text "op", .string (text "install_bpk")),
      (text "size", .int 0), (text "sha256", .string emptySha256)])
  else .error "syntax error"

/-- A device on which nothing fails, and nothing but the empty package is hashed. -/
def device : Env where
  uart := false
  maxFramePayload := 4096
  maxTransferSize := 65536
  uploadRoot := text "/littlefs/upload"
  parse := parseLine
  pathContainsSymlink _ _ := false
  exists_ _ _ := .ok false
  createDirectories _ := true
  openFile _ := .ok ()
  sha256Starts _ := true
  writeFile _ := .ok ()
  sha256Updates _ := true
  sha256Finishes _ := true
  sha256 _ := emptySha256
  bridge _ := some fun _ _ _ => .ok ()
  serviceCallBridge _ := none

def ready : Impl where
  status := ⟨.ready, true, false, false, 0⟩
  transferStatus := ⟨.idle, 0, 0, 0, ""⟩
  requestIds := []
  rxBuffer := []
  frameParser := []
  transfer := none
  outputs := []
  handled := []

def asLine (line : Bytes) : List RxByte := (line ++ [10]).map (⟨·, false⟩)

def asFrame (frame : Bytes) : List RxByte := frame.map (⟨·, true⟩)

def commands : List RxByte := asLine helloLine ++ asLine installLine

set_option maxRecDepth 10000 in
theorem hello_indifferent : Indifferent device ready (asLine helloLine) := by
  have hsplit : splitLine (asLine helloLine) = some (helloLine.map (⟨·, false⟩), []) := by decide +kernel
  have hidle : (takeLine device ready (helloLine.map (⟨·, false⟩))).transfer = none := by decide +kernel
  refine (indifferent_iff ⟨rfl, rfl⟩).mpr (.line rfl hsplit ?_ ?_ hidle (.openLine hidle rfl (Nat.zero_le _)))
  all_goals decide +kernel

set_option maxRecDepth 10000 in
/-- The package is installed if the frame comes in a chunk of its own, and not if it comes with its command. -/
theorem endFrame_in_one_chunk : IsCut [commands, asFrame endFrame] (commands ++ asFrame endFrame) ∧
    IsCut [commands ++ asFrame endFrame] (commands ++ asFrame endFrame) ∧
    ((run device ready [commands, asFrame endFrame]).handled.length,
      (run device ready [commands, asFrame endFrame]).transferStatus.state) = (3, .completed) ∧
    ((run device ready [commands ++ asFrame endFrame]).handled.length,
      (run device ready [commands ++ asFrame endFrame]).transferStatus.state) = (2, .receiving) := by
  refine ⟨⟨by simp, ?_⟩, ⟨by simp, ?_⟩, ?_, ?_⟩
  all_goals decide +kernel

end Brookesia.Usb.Chunking
