import Brookesia.DataFlow.Model
import Brookesia.Transition.Parts

/-! # What a step of the registry does

* `tokens`: what the calls in progress are about to do with an operation or a binding, as a list.
* `Change`: what a step does to the registry and the operations, and which tokens it is made with and
  leaves.
* `step_change`: every step is one of these. -/

namespace Brookesia.DataFlow.Steps

open Transition Model List

/-! ### Tokens -/

inductive Token
  | opening (operation : OperationId)
  | described (operation : OperationId) (providerId : String) (info : OperationInfo)
  | attached (operation : OperationId) (providerId : String)
  | added (operation : OperationId)
  | doomed (operation : OperationId)
  | removal (operation : OperationId)
  | held (binding : BindingId)
  deriving DecidableEq

def Token.key : Token → Option OperationId
  | .opening operation | .described operation _ _ | .attached operation _ => some operation
  | _ => none

def Token.binding : Token → Option BindingId
  | .held binding => some binding
  | _ => none

def frameTokens : Frame → List Token
  | .open _ stage => match stage with
    | .opening _ binding => [.held binding]
    | .checking _ binding operation | .describing _ binding operation =>
      [.opening operation, .held binding]
    | .attaching selection binding operation info =>
      [.described operation selection.info.id info, .held binding]
    | .inserting selection binding operation =>
      [.attached operation selection.info.id, .held binding]
    | .detaching binding operation | .clearing binding operation _ =>
      .opening operation :: binding.toList.map .held
    | .failing binding => binding.toList.map .held
    | .returning operation => [.added operation]
    | .selecting | .binding _ => []
  | .close operation stage => match stage with
    | .entered => [.doomed operation]
    | .onClose release => release.join.toList.map .removal
    | .releasing id => id.toList.map .removal
    | .dropping binding => [.held binding]
  | .revoking operations _ bindings => operations.map .doomed ++ bindings.map .held
  | _ => []

def tokens (s : State) : List Token := s.threads.flatten.flatMap frameTokens

/-- The operation has the metadata of its provider, and nothing has closed it. -/
structure Attached (o : Operation) (operation : OperationId) (providerId : String) : Prop where
  closed : o.closed = false
  releaseCallback : o.releaseCallback = true
  id : o.info.id = some operation
  providerId : o.info.providerId = providerId

def TokenOk (s : State) : Token → Prop
  | .opening operation => operation < s.nextOperation
  | .described operation providerId info =>
    operation < s.nextOperation ∧ info.id = some operation ∧ info.providerId = providerId
  | .attached operation providerId => operation < s.nextOperation ∧
    ((s.heap operation).closed = false → Attached (s.heap operation) operation providerId)
  | .added operation => operation ∈ s.added
  | .doomed operation => operation < s.nextOperation
  | .removal operation => operation < s.nextOperation ∧ (s.heap operation).closed = true
  | .held _ => True

/-! ### Changes -/

/-- An operation that is not being made keeps its metadata until it is closed. -/
structure Keeps (o o' : Operation) : Prop where
  closed : o.closed = true → o'.closed = true
  alive : o'.closed = false → o.closed = false ∧ o'.releaseCallback = o.releaseCallback ∧
    o'.info.id = o.info.id ∧ o'.info.providerId = o.info.providerId
  callback : o'.releaseCallback = true → o.releaseCallback = true ∧ o'.info.id = o.info.id

theorem keeps_close (o : Operation) : Keeps o o.close :=
  ⟨fun _ => rfl, nofun, nofun⟩

theorem keeps_setState (o : Operation) (state : OperationState) : Keeps o (o.setState state) := by
  unfold Operation.setState
  split
  · exact ⟨id, fun h => ⟨h, rfl, rfl, rfl⟩, fun h => ⟨h, rfl⟩⟩
  · exact ⟨id, fun h => ⟨h, rfl, rfl, rfl⟩, fun h => ⟨h, rfl⟩⟩

/-- What a step of the frame `top` does: the state after it, the tokens that are `gone` and `come`. -/
inductive Change (s : State) (top : Option Frame) :
    State → (gone come : List Token) → Prop
  | same {gone come : List Token} (hcome : ∀ token ∈ come, TokenOk s token)
      (hkeys : (come.filterMap Token.key).Sublist (gone.filterMap Token.key))
      (hbindings : come.filterMap Token.binding = gone.filterMap Token.binding)
      (hdoomed : ∀ operation, .doomed operation ∈ gone → (s.heap operation).closed = true)
      (hremoval : ∀ operation, .removal operation ∈ gone →
        ∀ record ∈ s.operations, record.operation ≠ operation) : Change s top s gone come
  | bind : Change s top { s with nextBinding := s.nextBinding + 1 } [] [.held s.nextBinding]
  | drop (binding : BindingId) : Change s top { s with released := binding :: s.released }
      [.held binding] []
  | create : Change s top
      { s.setOperation s.nextOperation {} with nextOperation := s.nextOperation + 1 }
      [] [.opening s.nextOperation]
  | attach (operation : OperationId) (providerId : String) (info : OperationInfo) : Change s top
      (s.setOperation operation ((s.heap operation).setRegistryMetadata info true))
      [.described operation providerId info] [.attached operation providerId]
  | clear (operation : OperationId) (info : OperationInfo) : Change s top
      (s.setOperation operation ((s.heap operation).setRegistryMetadata info false))
      [.opening operation] [.doomed operation]
  | insert (config : OperationConfig) (selection : ProviderSelection) (binding : BindingId)
      (operation : OperationId)
      (htop : top = some (.open config (.inserting selection binding operation)))
      (hcurrent : isSelectionCurrent s.providers selection = true) : Change s top
      { s with
        operations := s.operations ++ [⟨operation, binding, selection.generation⟩]
        added := operation :: s.added }
      [.attached operation selection.info.id, .held binding] [.added operation]
  | close (operation : OperationId) : Change s top
      (s.setOperation operation (s.heap operation).close)
      [.doomed operation]
      (if (s.heap operation).releaseCallback then
        (s.heap operation).close.info.id.toList.map .removal else [])
  | remove {record : OperationRecord} (hmem : record ∈ s.operations) : Change s top
      { s with operations := s.operations.filter (·.operation ≠ record.operation) }
      [.removal record.operation] [.held record.binding]
  | unregister (providerId : String) : Change s top
      { (takeOperations s providerId).1 with
        providers := s.providers.filter (·.info.id ≠ providerId) }
      [] (frameTokens (revokeFrame (takeOperations s providerId).2))
  | invalidate (providerId : String) : Change s top
      { (takeOperations s providerId).1 with
        providers := s.providers.map fun record =>
          if record.info.id = providerId then { record with generation := s.nextGeneration }
          else record
        nextGeneration := s.nextGeneration + 1 }
      [] (frameTokens (revokeFrame (takeOperations s providerId).2))
  | register {record : ProviderRecord} (hnew : ∀ r ∈ s.providers, r.info.id ≠ record.info.id) :
      Change s top
      { s with
        providers := s.providers.orderedInsert (fun x y => x.info.id ≤ y.info.id) record
        nextGeneration := s.nextGeneration + 1 } [] []
  | setState (operation : OperationId) (state : OperationState) : Change s top
      (s.setOperation operation ((s.heap operation).setState state)) [] []
  | returned {operation : OperationId} (hadded : operation ∈ s.added) : Change s top
      { s with returned := operation :: s.returned } [.added operation] []

/-! ### The steps of a frame -/

/-- What the frame on top of a stack does, over the others. -/
def Effect (s : State) (frame : Frame) (frames : List Frame) (s' : State) (frames' : List Frame) :
    Prop :=
  s'.threads = s.threads ∧ ∃ gone come kept, Change s (some frame) s' gone come ∧
    (frameTokens frame).Perm (gone ++ kept) ∧
      (frames'.flatMap frameTokens).Perm (come ++ (kept ++ frames.flatMap frameTokens))

section Effect
variable {s s' : State} {frame : Frame} {frames frames' : List Frame}

theorem Effect.goes {frame' : Frame} (gone come kept : List Token) (hc : Change s (some frame) s' gone come)
    (hths : s'.threads = s.threads) (hold : frameTokens frame = gone ++ kept)
    (hnew : frameTokens frame' = come ++ kept) : Effect s frame frames s' (frame' :: frames) :=
  ⟨hths, gone, come, kept, hc, by rw [hold], by simp [hnew]⟩

theorem Effect.returns (gone : List Token) (hc : Change s (some frame) s' gone [])
    (hths : s'.threads = s.threads) (hold : frameTokens frame = gone) :
    Effect s frame frames s' frames :=
  ⟨hths, gone, [], [], hc, by simp [hold], by simp⟩

theorem change_same {top : Option Frame} : Change s top s [] [] :=
  .same (by simp) (by simp) rfl (by simp) (by simp)

theorem openStep_effect {config : OperationConfig} {stage : OpenStage} {answer : Answer}
    (hok : ∀ token ∈ frameTokens (.open config stage), TokenOk s token)
    (hnew : ∀ operation, operation ∈ (frameTokens (.open config stage)).filterMap Token.key →
      ∀ record ∈ s.operations, record.operation ≠ operation) :
    Effect s (.open config stage) frames (openStep s config answer frames stage).1
      (openStep s config answer frames stage).2 := by
  cases stage with
  | selecting =>
    simp only [openStep]
    split
    · exact .returns [] change_same rfl rfl
    · exact .goes [] [] [] change_same rfl rfl rfl
  | binding selection =>
    cases answer with
    | refused => exact .returns [] change_same rfl rfl
    | invalid => exact .goes [] _ [] .bind rfl rfl rfl
    | granted => exact .goes [] _ [] .bind rfl rfl rfl
  | opening selection binding =>
    cases answer with
    | refused => exact .goes [] [] [.held binding] change_same rfl rfl rfl
    | invalid => exact .goes [] [] [.held binding] change_same rfl rfl rfl
    | granted => exact .goes [] [.opening s.nextOperation] [.held binding] .create rfl rfl rfl
  | checking selection binding operation =>
    have hlt : operation < s.nextOperation := hok (.opening operation) (by simp [frameTokens])
    simp only [openStep]
    split
    · exact .goes [] [] [.opening operation, .held binding] change_same rfl rfl rfl
    · refine ⟨rfl, [.opening operation], [.doomed operation], [.held binding], ?_, by
        simp [frameTokens], by simp [frameTokens]⟩
      exact .same (by simpa [TokenOk] using hlt) (by simp [Token.key]) rfl (by simp) (by simp)
  | describing selection binding operation =>
    have hlt : operation < s.nextOperation := hok (.opening operation) (by simp [frameTokens])
    refine .goes [.opening operation] [.described operation selection.info.id _] [.held binding] ?_
      rfl rfl rfl
    exact .same (by simpa [TokenOk] using hlt) (by simp [Token.key]) rfl (by simp) (by simp)
  | attaching selection binding operation info =>
    exact .goes _ _ [.held binding] (.attach operation selection.info.id info) rfl rfl rfl
  | inserting selection binding operation =>
    have hlt : operation < s.nextOperation :=
      (hok (.attached operation selection.info.id) (by simp [frameTokens])).1
    have hnot : s.operations.any (·.operation = operation) = false := by
      simpa using hnew operation (by simp [frameTokens, Token.key])
    simp only [openStep, hnot]
    split
    · next hcur =>
      exact .goes _ [.added operation] [] (.insert config selection binding operation rfl hcur) rfl
        rfl rfl
    · refine .goes [.attached operation selection.info.id] [.opening operation] [.held binding] ?_
        rfl rfl rfl
      exact .same (by simpa [TokenOk] using hlt) (by simp [Token.key]) rfl (by simp) (by simp)
  | detaching binding operation =>
    exact .goes [] [] (.opening operation :: binding.toList.map .held) change_same rfl rfl rfl
  | clearing binding operation info =>
    exact ⟨rfl, [.opening operation], [.doomed operation], binding.toList.map .held,
      .clear operation info, by simp [frameTokens], by simp [openStep, frameTokens]⟩
  | failing binding =>
    cases binding with
    | none => exact .returns [] change_same rfl rfl
    | some binding => exact .returns [.held binding] (.drop binding) rfl rfl
  | returning operation =>
    exact .returns [.added operation] (.returned (hok (.added operation) (by simp [frameTokens])))
      rfl rfl

theorem closeStep_effect {operation : OperationId} {stage : CloseStage}
    (hok : ∀ token ∈ frameTokens (.close operation stage), TokenOk s token) :
    Effect s (.close operation stage) frames (closeStep s operation frames stage).1
      (closeStep s operation frames stage).2 := by
  cases stage with
  | entered =>
    simp only [closeStep]
    split
    · next hcl =>
      refine .returns [.doomed operation] ?_ rfl rfl
      exact .same (by simp) (by simp) rfl (by simpa using hcl) (by simp)
    · refine .goes [.doomed operation] _ [] (.close operation) rfl rfl ?_
      split <;> simp [frameTokens]
  | onClose release =>
    cases release with
    | none => exact .returns [] change_same rfl rfl
    | some id => exact .goes [] [] (id.toList.map .removal) change_same rfl rfl rfl
  | releasing id =>
    simp only [closeStep]
    split
    · next hnone =>
      refine .returns (id.toList.map .removal) ?_ rfl rfl
      have hmissing : ∀ operation, some operation = id → ∀ record ∈ s.operations, record.operation ≠ operation := by
        rintro operation rfl record hmem rfl
        simpa using List.find?_eq_none.mp hnone record hmem
      refine .same (by simp) (by simp) ?_ (by simp) fun operation h => ?_
      · cases id <;> simp [Token.binding]
      · exact hmissing operation (by simpa [eq_comm] using h)
    · next record hrec =>
      have hid : some record.operation = id := by simpa using List.find?_some hrec
      subst hid
      refine .goes [.removal record.operation] [.held record.binding] [] ?_ rfl rfl rfl
      simpa using Change.remove (mem_of_find?_eq_some hrec)
  | dropping binding => exact .returns [.held binding] (.drop binding) rfl rfl

theorem frameStep_effect {answer : Answer} (hok : ∀ token ∈ frameTokens frame, TokenOk s token)
    (hnew : ∀ operation, operation ∈ (frameTokens frame).filterMap Token.key →
      ∀ record ∈ s.operations, record.operation ≠ operation)
    (hknown : ∀ record ∈ s.operations, record.operation < s.nextOperation) :
    Effect s frame frames (frameStep s answer frames frame).1 (frameStep s answer frames frame).2 := by
  cases frame with
  | «open» config stage => exact openStep_effect hok hnew
  | close operation stage => exact closeStep_effect hok
  | register provider info =>
    simp only [frameStep]
    split
    · exact .returns [] change_same rfl rfl
    · split
      · exact .returns [] change_same rfl rfl
      · next hnone =>
        refine .returns [] (.register ?_) rfl rfl
        simpa using hnone
  | unregister providerId =>
    simp only [frameStep]
    split
    · exact .goes [] _ [] (.unregister providerId) rfl rfl (by simp)
    · exact .returns [] change_same rfl rfl
  | invalidate providerId =>
    simp only [frameStep]
    split
    · exact .goes [] _ [] (.invalidate providerId) rfl rfl (by simp)
    · exact .returns [] change_same rfl rfl
  | revoking operations isMarked bindings =>
    cases operations with
    | nil =>
      cases bindings with
      | nil => exact .returns [] change_same rfl rfl
      | cons binding bindings =>
        exact .goes [.held binding] [] (bindings.map .held) (.drop binding) rfl rfl rfl
    | cons operation operations =>
      cases isMarked with
      | false =>
        exact .goes [] [] _ (.setState operation .unavailable) rfl rfl rfl
      | true =>
        exact ⟨rfl, [], [], _, change_same, .refl _, by simp [frameStep, frameTokens]⟩
  | releaseOperation id =>
    simp only [frameStep]
    split
    · next hany =>
      refine .goes [] [.doomed id] [] ?_ rfl rfl rfl
      obtain ⟨record, hmem, hid⟩ := any_eq_true.mp hany
      have hlt : id < s.nextOperation := by simpa using of_decide_eq_true hid ▸ hknown record hmem
      exact .same (by simpa [TokenOk] using hlt) (by simp [Token.key]) rfl (by simp) (by simp)
    · exact .returns [] change_same rfl rfl

end Effect

/-! ### Steps -/

/-- The operations that are being made, and those in the map. -/
def keys (ts : List Token) (s : State) : List OperationId :=
  ts.filterMap Token.key ++ s.operations.map (·.operation)

def topFrame (s : State) : Action → Option Frame
  | .advance t _ => (s.threads[t]?).bind List.head?
  | _ => none

theorem step_change {s s' : State} {a : Action} (hok : ∀ token ∈ tokens s, TokenOk s token)
    (hkeys : (keys (tokens s) s).Nodup)
    (hknown : ∀ record ∈ s.operations, record.operation < s.nextOperation)
    (h : step s a = some s') : ∃ s₁ threads gone come rest, Change s (topFrame s a) s₁ gone come ∧
      s' = { s₁ with threads := threads } ∧ (tokens s).Perm (gone ++ rest) ∧ (tokens s').Perm (come ++ rest) := by
  cases a with
  | call t c =>
    simp only [step] at h
    split at h
    · next hidle =>
      obtain ⟨frame, hf, rfl⟩ := Option.map_eq_some_iff.mp h
      obtain ⟨rest, hold, hnew⟩ := @exchange _ _ _ _ _ hidle [frame] frameTokens [] (frameTokens frame)
        [] (by simp) (by simp)
      refine ⟨s, _, [], frameTokens frame, rest, ?_, rfl, hold, hnew⟩
      cases c with
      | close operation =>
        simp only [callFrame] at hf
        split at hf <;> cases hf
        next hlt =>
        exact .same (by simpa [frameTokens, TokenOk] using hlt) (by simp [frameTokens, Token.key]) rfl
          (by simp) (by simp)
      | «open» config => cases hf; exact change_same
      | register provider info => cases hf; exact change_same
      | unregister providerId => cases hf; exact change_same
      | invalidate providerId => cases hf; exact change_same
      | releaseOperation id => cases hf; exact change_same
    · cases h
  | advance t answer =>
    simp only [step] at h
    split at h
    · next frame frames hstk =>
      cases h
      have hmem : ∀ token ∈ frameTokens frame, token ∈ tokens s := fun token ht =>
        mem_flatMap.mpr ⟨frame, mem_flatten.mpr ⟨_, mem_of_getElem? hstk, mem_cons_self ..⟩, ht⟩
      obtain ⟨hths, gone, come, kept, hc, hgone, hcome⟩ :=
        @frameStep_effect s frame frames answer (fun token ht => hok token (hmem token ht))
          (fun operation hop record hr heq => by
            obtain ⟨token, ht, hkey⟩ := mem_filterMap.mp hop
            have hdisjoint := (nodup_append.mp hkeys).2.2 operation
              (mem_filterMap.mpr ⟨token, hmem token ht, hkey⟩) operation
              (mem_map.mpr ⟨record, hr, heq⟩)
            exact hdisjoint rfl) hknown
      have hold : ((frame :: frames).flatMap frameTokens).Perm (gone ++ (kept ++ frames.flatMap frameTokens)) := by
        simpa using Perm.append_right (frames.flatMap frameTokens) hgone
      obtain ⟨rest, h1, h2⟩ := exchange hstk frameTokens hold hcome
      have htop : topFrame s (.advance t answer) = some frame := by simp [topFrame, hstk]
      refine ⟨_, _, gone, come, rest, htop ▸ hc, rfl, h1, ?_⟩
      simpa [tokens, hths] using h2
    · cases h
  | setState operation state =>
    simp only [step] at h
    split at h
    · cases h
      exact ⟨_, s.threads, [], [], tokens s, .setState operation state, rfl, .refl _, .refl _⟩
    · cases h

end Brookesia.DataFlow.Steps
