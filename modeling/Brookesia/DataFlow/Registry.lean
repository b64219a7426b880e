import Brookesia.DataFlow.Steps

/-! # Operations and bindings of the registry

* `Inv`: an operation that has been added is closed, in the map or about to be closed; every binding
  that has been acquired is held by a call, in a record, or has been released, once.
* `Alive`: a record refers to an operation that is not closed, of a provider that is registered in the
  generation of the record, or is about to be removed.
* `no_dead_operation`: what holds when no call is in progress. -/

namespace Brookesia.DataFlow.Registry

open Transition Model Steps List
open Function (update_of_ne update_self)

/-! ### The invariant -/

structure Inv (ts : List Token) (s : State) : Prop where
  ok : ∀ token ∈ ts, TokenOk s token
  keys : (keys ts s).Nodup
  known : ∀ record ∈ s.operations, record.operation < s.nextOperation
  callback : ∀ operation, (s.heap operation).releaseCallback = true → (s.heap operation).info.id = some operation
  added : ∀ operation ∈ s.added, operation < s.nextOperation ∧
    ((s.heap operation).closed = true ∨ (∃ record ∈ s.operations, record.operation = operation) ∨
      .doomed operation ∈ ts)
  returned : ∀ operation ∈ s.returned, operation ∈ s.added
  bindings : (ts.filterMap Token.binding ++ (s.operations.map (·.binding) ++ s.released)).Perm
    (List.range s.nextBinding)

theorem Inv.perm {s : State} {ts ts' : List Token} (hi : Inv ts s) (h : ts.Perm ts') : Inv ts' s where
  ok token ht := hi.ok token (h.mem_iff.mpr ht)
  keys := (Perm.append_right _ (h.filterMap _)).nodup hi.keys
  known := hi.known
  callback := hi.callback
  added operation ho := ⟨(hi.added operation ho).1,
    (hi.added operation ho).2.imp_right fun hr => hr.imp_right h.mem_iff.mp⟩
  returned := hi.returned
  bindings := (Perm.append_right _ (h.filterMap _)).symm.trans hi.bindings

theorem perm_record {operations : List OperationRecord}
    (hnd : (operations.map (·.operation)).Nodup) {record : OperationRecord}
    (hmem : record ∈ operations) :
    operations.Perm (record :: operations.filter (·.operation ≠ record.operation)) := by
  induction operations with
  | nil => cases hmem
  | cons r operations ih =>
    obtain ⟨hr, hnd⟩ := nodup_cons.mp hnd
    rcases mem_cons.mp hmem with rfl | hmem
    · have hall : operations.filter (·.operation ≠ record.operation) = operations :=
        filter_eq_self.mpr fun x hx => by
          simpa using fun heq => hr (mem_map.mpr ⟨x, hx, heq⟩)
      rw [filter_cons_of_neg (by simp), hall]
    · have hne : r.operation ≠ record.operation := fun heq =>
        hr (mem_map.mpr ⟨record, hmem, heq.symm⟩)
      rw [filter_cons_of_pos (by simpa using hne)]
      exact (Perm.cons r (ih hnd hmem)).trans (.swap _ _ _)

section Change
variable {s s' : State} {gone come rest : List Token} (hi : Inv (gone ++ rest) s)
include hi

theorem Inv.heap (hs : s' = { s with
      heap := s'.heap, providers := s'.providers, nextGeneration := s'.nextGeneration })
    (hcl : ∀ operation, (s.heap operation).closed = true → (s'.heap operation).closed = true)
    (hatt : ∀ operation providerId, .attached operation providerId ∈ rest →
      (s'.heap operation).closed = false → Attached (s'.heap operation) operation providerId)
    (hcb : ∀ operation, (s'.heap operation).releaseCallback = true → (s'.heap operation).info.id = some operation)
    (hcome : ∀ token ∈ come, TokenOk s' token)
    (hkeys : (come.filterMap Token.key).Sublist (gone.filterMap Token.key))
    (hbinds : come.filterMap Token.binding = gone.filterMap Token.binding)
    (hdoomed : ∀ operation, .doomed operation ∈ gone →
      (s'.heap operation).closed = true ∨ .doomed operation ∈ come) : Inv (come ++ rest) s' := by
  have hok := fun token ht => hi.ok token (mem_append_right _ ht)
  rw [hs]
  refine ⟨fun token ht => ?_, ?_, hi.known, hcb, fun operation ho => ?_, hi.returned, ?_⟩
  · rw [← hs]
    rcases mem_append.mp ht with ht | ht
    · exact hcome token ht
    · have h := hok token ht
      cases token with
      | attached operation providerId =>
        exact ⟨by rw [hs]; exact h.1, hatt operation providerId ht⟩
      | removal operation => exact ⟨by rw [hs]; exact h.1, hcl operation h.2⟩
      | _ => rw [hs]; exact h
  · refine Nodup.sublist ?_ hi.keys
    simp only [Steps.keys, filterMap_append]
    exact (hkeys.append_right _).append_right _
  · obtain ⟨hlt, hrest⟩ := hi.added operation ho
    refine ⟨hlt, ?_⟩
    rcases hrest with hrest | hrest | hrest
    · exact .inl (hcl operation hrest)
    · exact .inr (.inl hrest)
    · rcases mem_append.mp hrest with hrest | hrest
      · exact (hdoomed operation hrest).imp_right fun h => .inr (mem_append_left _ h)
      · exact .inr (.inr (mem_append_right _ hrest))
  · simpa [hbinds] using hi.bindings

variable {operation : OperationId}

theorem Inv.setOperation {o : Operation} (hcl : (s.heap operation).closed = true → o.closed = true)
    (hatt : ∀ providerId, .attached operation providerId ∈ rest → o.closed = false → Attached o operation providerId)
    (hcb : o.releaseCallback = true → o.info.id = some operation)
    (hcome : ∀ token ∈ come, TokenOk (s.setOperation operation o) token)
    (hkeys : (come.filterMap Token.key).Sublist (gone.filterMap Token.key))
    (hbinds : come.filterMap Token.binding = gone.filterMap Token.binding)
    (hdoomed : ∀ x, .doomed x ∈ gone → x = operation ∧ o.closed = true) :
    Inv (come ++ rest) (s.setOperation operation o) := by
  have hself : (s.setOperation operation o).heap operation = o := update_self ..
  have hoth : ∀ x, x ≠ operation → (s.setOperation operation o).heap x = s.heap x :=
    fun x hne => update_of_ne hne ..
  refine hi.heap rfl (fun x h => ?_) (fun x providerId hmem h => ?_) (fun x h => ?_) hcome hkeys hbinds fun x hx => ?_
  · by_cases hne : x = operation
    · subst hne; rw [hself]; exact hcl h
    · rwa [hoth x hne]
  · by_cases hne : x = operation
    · subst hne; rw [hself] at h ⊢; exact hatt providerId hmem h
    · rw [hoth x hne] at h ⊢
      exact (hi.ok _ (mem_append_right _ hmem)).2 h
  · by_cases hne : x = operation
    · subst hne; rw [hself] at h ⊢; exact hcb h
    · rw [hoth x hne] at h ⊢
      exact hi.callback x h
  · obtain ⟨rfl, ho⟩ := hdoomed x hx
    exact .inl (by rw [hself]; exact ho)

theorem Inv.keeps {o : Operation} (hkeeps : Keeps (s.heap operation) o)
    (hcome : ∀ token ∈ come, TokenOk (s.setOperation operation o) token)
    (hkeys : (come.filterMap Token.key).Sublist (gone.filterMap Token.key))
    (hbinds : come.filterMap Token.binding = gone.filterMap Token.binding)
    (hdoomed : ∀ x, .doomed x ∈ gone → x = operation ∧ o.closed = true) :
    Inv (come ++ rest) (s.setOperation operation o) := by
  refine hi.setOperation hkeeps.closed (fun providerId hmem h => ?_) (fun h => ?_) hcome hkeys hbinds hdoomed
  · obtain ⟨hopen, hcb, hid, hprov⟩ := hkeeps.alive h
    have hold := (hi.ok _ (mem_append_right _ hmem)).2 hopen
    exact ⟨h, hcb.trans hold.releaseCallback, hid.trans hold.id, hprov.trans hold.providerId⟩
  · obtain ⟨hcb, hid⟩ := hkeeps.callback h
    exact hid.trans (hi.callback operation hcb)

omit hi in
theorem Inv.not_attached (hi : Inv (gone ++ rest) s)
    (hgone : operation ∈ gone.filterMap Token.key) (providerId : String) :
    .attached operation providerId ∉ rest := by
  intro hmem
  have hkeys := hi.keys
  simp only [Steps.keys, filterMap_append, append_assoc] at hkeys
  have hrest : operation ∈ rest.filterMap Token.key :=
    mem_filterMap.mpr ⟨_, hmem, rfl⟩
  exact (nodup_append.mp hkeys).2.2 operation hgone operation (mem_append_left _ hrest) rfl

theorem Inv.setRegistryMetadata {info : OperationInfo} {callbacks : Bool} (hgone : operation ∈ gone.filterMap Token.key)
    (hid : callbacks = true → info.id = some operation)
    (hcome : ∀ token ∈ come, TokenOk (s.setOperation operation
      ((s.heap operation).setRegistryMetadata info callbacks)) token)
    (hkeys : (come.filterMap Token.key).Sublist (gone.filterMap Token.key))
    (hbinds : come.filterMap Token.binding = gone.filterMap Token.binding)
    (hdoomed : ∀ x, .doomed x ∉ gone) : Inv (come ++ rest) (s.setOperation operation
      ((s.heap operation).setRegistryMetadata info callbacks)) := by
  refine hi.setOperation (fun h => ?_) (fun providerId hmem => ?_) (fun h => ?_) hcome hkeys hbinds
    fun x hx => absurd hx (hdoomed x)
  · simp [Operation.setRegistryMetadata, h]
  · exact absurd hmem (hi.not_attached hgone providerId)
  · unfold Operation.setRegistryMetadata at h ⊢
    split at h
    · next hcl => rw [if_pos hcl]; exact hi.callback operation h
    · next hcl => rw [if_neg hcl]; exact hid h

theorem Inv.take (hgone : gone = []) (providerId : String) {s' : State}
    (hs : s' = { (takeOperations s providerId).1 with
      providers := s'.providers, nextGeneration := s'.nextGeneration }) :
    Inv (frameTokens (revokeFrame (takeOperations s providerId).2) ++ rest) s' := by
  subst hgone
  set own := fun r : OperationRecord => decide ((s.heap r.operation).info.providerId = providerId)
  have hcome : frameTokens (revokeFrame (takeOperations s providerId).2) =
      (s.operations.filter own).map (.doomed ·.operation) ++ (s.operations.filter own).map (.held ·.binding) := by
    simp [revokeFrame, frameTokens, takeOperations, own, Function.comp_def]
  rw [hcome, hs]
  refine ⟨fun token ht => ?_, ?_, fun record hr => ?_, hi.callback, fun x hx => ?_, hi.returned, ?_⟩
  · rcases mem_append.mp ht with ht | ht
    · rcases mem_append.mp ht with ht | ht
      · obtain ⟨record, hr, rfl⟩ := mem_map.mp ht
        exact hi.known record (mem_filter.mp hr).1
      · obtain ⟨record, hr, rfl⟩ := mem_map.mp ht
        trivial
    · exact hi.ok token ht
  · refine Nodup.sublist ?_ hi.keys
    have hnone : ((s.operations.filter own).map (Token.doomed ·.operation) ++
        (s.operations.filter own).map (Token.held ·.binding)).filterMap Token.key = [] := by
      simp [Token.key, Function.comp_def, filterMap_map]
    simp only [Steps.keys, filterMap_append, nil_append] at hnone ⊢
    rw [hnone]
    exact (filter_sublist.map _).append_left _
  · exact hi.known record (mem_filter.mp hr).1
  · refine ⟨(hi.added x hx).1, ?_⟩
    rcases (hi.added x hx).2 with h | ⟨record, hr, rfl⟩ | h
    · exact .inl h
    · by_cases hown : own record = true
      · refine .inr (.inr (mem_append_left _ (mem_append_left _ ?_)))
        exact mem_map.mpr ⟨record, mem_filter.mpr ⟨hr, hown⟩, rfl⟩
      · exact .inr (.inl ⟨record, mem_filter.mpr ⟨hr, by simpa [own] using hown⟩, rfl⟩)
    · exact .inr (.inr (mem_append_right _ h))
  · have hbinds : ((s.operations.filter own).map (Token.doomed ·.operation) ++
        (s.operations.filter own).map (Token.held ·.binding)).filterMap Token.binding =
          (s.operations.filter own).map (·.binding) := by
      simp [Token.binding, Function.comp_def, filterMap_map]
    have hsplit := ((filter_append_perm own s.operations).map (·.binding)).append_right s.released
    refine Perm.trans ?_ hi.bindings
    rw [filterMap_append, hbinds]
    refine Perm.trans ?_ (Perm.append_left _ hsplit)
    simp only [map_append, append_assoc, nil_append]
    exact perm_append_comm_assoc _ _ _

theorem Inv.create (hgone : gone = []) : Inv (.opening s.nextOperation :: rest)
    { s.setOperation s.nextOperation {} with nextOperation := s.nextOperation + 1 } := by
  subst hgone
  have hoth : ∀ x, x < s.nextOperation → (s.setOperation s.nextOperation {}).heap x = s.heap x :=
    fun x hlt => update_of_ne (Nat.ne_of_lt hlt) ..
  have hkey : ∀ x ∈ Steps.keys rest s, x < s.nextOperation := by
    intro x hx
    rcases mem_append.mp hx with hx | hx
    · obtain ⟨token, ht, hkey⟩ := mem_filterMap.mp hx
      have hok := hi.ok token ht
      cases token <;> cases hkey
      · exact hok
      · exact hok.1
      · exact hok.1
    · obtain ⟨record, hr, rfl⟩ := mem_map.mp hx
      exact hi.known record hr
  refine ⟨fun token ht => ?_, ?_, fun record hr => ?_, fun x h => ?_, fun x hx => ?_, hi.returned, hi.bindings⟩
  · rcases mem_cons.mp ht with rfl | ht
    · exact Nat.lt_succ_self _
    · have hok := hi.ok token ht
      cases token with
      | opening x => exact Nat.lt_succ_of_lt hok
      | described x providerId info => exact ⟨Nat.lt_succ_of_lt hok.1, hok.2⟩
      | attached x providerId =>
        refine ⟨Nat.lt_succ_of_lt hok.1, ?_⟩
        simp only [hoth x hok.1]
        exact hok.2
      | added x => exact hok
      | doomed x => exact Nat.lt_succ_of_lt hok
      | removal x =>
        refine ⟨Nat.lt_succ_of_lt hok.1, ?_⟩
        simp only [hoth x hok.1]
        exact hok.2
      | held binding => trivial
  · exact nodup_cons.mpr ⟨fun hmem => Nat.lt_irrefl _ (hkey _ hmem), hi.keys⟩
  · exact Nat.lt_succ_of_lt (hi.known record hr)
  · by_cases hne : x = s.nextOperation
    · subst hne
      simp [State.setOperation] at h
    · simp only [State.setOperation, update_of_ne hne] at h ⊢
      exact hi.callback x h
  · obtain ⟨hlt, h⟩ := hi.added x hx
    refine ⟨Nat.lt_succ_of_lt hlt, ?_⟩
    simp only [hoth x hlt]
    exact h.imp_right fun h => h.imp_right (mem_cons_of_mem _)

theorem Inv.insert {providerId : String} {binding : BindingId}
    (hgone : gone = [.attached operation providerId, .held binding]) (generation : ℕ) :
    Inv (.added operation :: rest)
      { s with
        operations := s.operations ++ [⟨operation, binding, generation⟩]
        added := operation :: s.added } := by
  subst hgone
  have hrest : ∀ token ∈ rest, TokenOk s token := fun token ht =>
    hi.ok token (mem_append_right _ ht)
  have hlt : operation < s.nextOperation := (hi.ok (.attached operation providerId) (by simp)).1
  refine ⟨fun token ht => ?_, ?_, fun record hr => ?_, hi.callback, fun x hx => ?_, fun x hx => ?_, ?_⟩
  · rcases mem_cons.mp ht with rfl | ht
    · exact mem_cons_self ..
    · have hok := hrest token ht
      cases token with
      | added x => exact mem_cons_of_mem _ hok
      | _ => exact hok
  · have hkeys := hi.keys
    simp only [Steps.keys, filterMap_cons, Token.key, map_append, map_cons, map_nil, cons_append, nil_append] at hkeys ⊢
    refine Perm.nodup ?_ hkeys
    rw [← append_assoc]
    exact (perm_append_singleton _ _).symm
  · rcases mem_append.mp hr with hr | hr
    · exact hi.known record hr
    · rw [mem_singleton.mp hr]; exact hlt
  · rcases mem_cons.mp hx with rfl | hx
    · exact ⟨hlt, .inr (.inl ⟨⟨x, binding, generation⟩, by simp, rfl⟩)⟩
    · obtain ⟨hx, h⟩ := hi.added x hx
      refine ⟨hx, ?_⟩
      rcases h with h | ⟨record, hr, rfl⟩ | h
      · exact .inl h
      · exact .inr (.inl ⟨record, mem_append_left _ hr, rfl⟩)
      · exact .inr (.inr (by simpa using h))
  · exact mem_cons_of_mem _ (hi.returned x hx)
  · refine Perm.trans ?_ hi.bindings
    simp only [filterMap_cons, Token.binding, map_append, map_cons, map_nil, cons_append, nil_append, append_assoc]
    exact (Perm.append_left _ perm_middle).trans perm_middle

theorem Inv.remove {record : OperationRecord} (hmem : record ∈ s.operations)
    (hgone : gone = [.removal record.operation]) : Inv (.held record.binding :: rest)
      { s with operations := s.operations.filter (·.operation ≠ record.operation) } := by
  subst hgone
  have hnd : (s.operations.map (·.operation)).Nodup := (nodup_append.mp hi.keys).2.1
  have hperm := perm_record hnd hmem
  refine ⟨fun token ht => ?_, ?_, fun r hr => ?_, hi.callback, fun x hx => ?_, hi.returned, ?_⟩
  · rcases mem_cons.mp ht with rfl | ht
    · trivial
    · exact hi.ok token (mem_cons_of_mem _ ht)
  · exact Nodup.sublist ((filter_sublist.map _).append_left _) hi.keys
  · exact hi.known r (mem_filter.mp hr).1
  · refine ⟨(hi.added x hx).1, ?_⟩
    rcases (hi.added x hx).2 with h | ⟨r, hr, rfl⟩ | h
    · exact .inl h
    · by_cases heq : r.operation = record.operation
      · rw [heq]
        exact .inl (hi.ok (.removal record.operation) (by simp)).2
      · exact .inr (.inl ⟨r, mem_filter.mpr ⟨hr, by simpa using heq⟩, rfl⟩)
    · exact .inr (.inr (by simpa using h))
  · refine Perm.trans ?_ hi.bindings
    have hb := (hperm.map (·.binding)).append_right s.released
    exact (perm_middle.symm.trans (Perm.append_left _ hb.symm))

theorem Inv.change {top : Option Frame} (hc : Change s top s' gone come) : Inv (come ++ rest) s' := by
  cases hc with
  | same hcome hkeys hbinds hdoomed hremoval =>
    exact hi.heap rfl (fun _ h => h) (fun x providerId hmem h =>
      (hi.ok _ (mem_append_right _ hmem)).2 h) hi.callback hcome hkeys hbinds fun x hx => .inl (hdoomed x hx)
  | bind =>
    refine ⟨fun token ht => ?_, hi.keys, hi.known, hi.callback, fun x hx => ?_, hi.returned, ?_⟩
    · rcases mem_cons.mp ht with rfl | ht
      · trivial
      · exact hi.ok token ht
    · exact ⟨(hi.added x hx).1, (hi.added x hx).2.imp_right fun h => h.imp_right (mem_cons_of_mem _)⟩
    · rw [range_succ]
      exact (Perm.cons _ hi.bindings).trans (perm_append_singleton _ _).symm
  | drop binding =>
    refine ⟨fun token ht => hi.ok token (mem_cons_of_mem _ ht), hi.keys, hi.known, hi.callback,
      fun x hx => ?_, hi.returned, ?_⟩
    · refine ⟨(hi.added x hx).1, (hi.added x hx).2.imp_right fun h => h.imp_right fun h => ?_⟩
      simpa using h
    · refine Perm.trans ?_ hi.bindings
      simp only [nil_append, ← append_assoc]
      exact perm_middle
  | create => exact hi.create rfl
  | attach operation providerId info =>
    have hok := hi.ok (.described operation providerId info) (by simp)
    refine hi.setRegistryMetadata (by simp [Token.key]) (fun _ => hok.2.1) ?_ (by simp [Token.key]) rfl (by simp)
    intro token ht
    rw [mem_singleton.mp ht]
    refine ⟨hok.1, fun hopen => ?_⟩
    simp only [State.setOperation, update_self] at hopen ⊢
    unfold Operation.setRegistryMetadata at hopen ⊢
    split at hopen
    · next hcl => rw [hcl] at hopen; cases hopen
    · next hcl => rw [if_neg hcl]; exact ⟨hopen, rfl, hok.2.1, hok.2.2⟩
  | clear operation info =>
    have hok := hi.ok (.opening operation) (by simp)
    refine hi.setRegistryMetadata (by simp [Token.key]) (fun h => by cases h) ?_ (by simp [Token.key]) rfl (by simp)
    intro token ht
    rw [mem_singleton.mp ht]
    exact hok
  | insert config selection binding operation htop hcur =>
    exact hi.insert rfl selection.generation
  | close operation =>
    have hok : operation < s.nextOperation := hi.ok (.doomed operation) (by simp)
    have hdoomed : ∀ x, .doomed x ∈ [Token.doomed operation] →
        x = operation ∧ (s.heap operation).close.closed = true := by simp [Operation.close]
    by_cases hcb : (s.heap operation).releaseCallback = true
    · have hid : (s.heap operation).close.info.id = some operation := by
        rw [← hi.callback operation hcb]
        unfold Operation.close
        split <;> rfl
      rw [if_pos hcb, hid]
      refine hi.keeps (keeps_close _) (fun token ht => ?_) (nil_sublist _) rfl hdoomed
      rw [mem_singleton.mp ht]
      exact ⟨hok, by simp [State.setOperation, Operation.close]⟩
    · rw [if_neg hcb]
      exact hi.keeps (keeps_close _) (by simp) (by simp) rfl hdoomed
  | remove hmem => exact hi.remove hmem rfl
  | unregister providerId => exact hi.take rfl providerId rfl
  | invalidate providerId => exact hi.take rfl providerId rfl
  | register hnew =>
    exact hi.heap rfl (fun _ h => h) (fun x providerId hmem h =>
      (hi.ok _ (mem_append_right _ hmem)).2 h) hi.callback (by simp) (by simp) rfl (by simp)
  | setState operation state =>
    exact hi.keeps (keeps_setState _ state) (by simp) (by simp) rfl (by simp)
  | @returned operation hadded =>
    refine ⟨fun token ht => hi.ok token (mem_cons_of_mem _ ht), hi.keys, hi.known, hi.callback,
      fun x hx => ?_, fun x hx => ?_, hi.bindings⟩
    · refine ⟨(hi.added x hx).1, (hi.added x hx).2.imp_right fun h => h.imp_right fun h => ?_⟩
      simpa using h
    · rcases mem_cons.mp hx with rfl | hx
      · exact hadded
      · exact hi.returned x hx

end Change

/-! ### Live records -/

/-- The operation of a record is open, and its provider registered as it was selected. -/
def Live (s : State) (record : OperationRecord) : Prop :=
  ∃ provider ∈ s.providers, Attached (s.heap record.operation) record.operation provider.info.id ∧
      provider.generation = record.providerGeneration

def Alive (ts : List Token) (s : State) : Prop :=
  ∀ record ∈ s.operations, .removal record.operation ∈ ts ∨ Live s record

/-- An operation is added while it is open, or while the `close()` that has closed it is about to
remove its record. -/
def InsertsOpen (s : State) (a : Action) : Prop :=
  match topFrame s a with
  | some (.open _ (.inserting selection _ operation)) =>
    isSelectionCurrent s.providers selection = true → (s.heap operation).closed = true → .removal operation ∈ tokens s
  | _ => True

instance (s : State) (a : Action) : Decidable (InsertsOpen s a) := by
  unfold InsertsOpen
  split <;> infer_instance

section Alive
variable {s s' : State} {gone come rest : List Token} (hi : Inv (gone ++ rest) s) (ha : Alive (gone ++ rest) s)

include ha in
theorem Alive.of (h : ∀ record ∈ s'.operations, record ∈ s.operations ∧ .removal record.operation ∉ gone ∧
      (Live s record → .removal record.operation ∈ come ∨ Live s' record)) :
    Alive (come ++ rest) s' := by
  intro record hr
  obtain ⟨hold, hgone, hlive⟩ := h record hr
  rcases ha record hold with hremoval | hrec
  · exact .inl (mem_append_right _ ((mem_append.mp hremoval).resolve_left hgone))
  · exact (hlive hrec).imp_left (mem_append_left _)

theorem Live.heap {record : OperationRecord} (h : Live s record)
    (hheap : s'.heap record.operation = s.heap record.operation)
    (hprovs : ∀ provider ∈ s.providers, provider ∈ s'.providers) : Live s' record := by
  obtain ⟨provider, hp, hatt, hgen⟩ := h
  exact ⟨provider, hprovs provider hp, hheap ▸ hatt, hgen⟩

include hi in
theorem Inv.not_record {operation : OperationId} (hgone : operation ∈ gone.filterMap Token.key) :
    ∀ record ∈ s.operations, record.operation ≠ operation := by
  rintro record hr rfl
  have hkeys := hi.keys
  simp only [Steps.keys, filterMap_append, append_assoc] at hkeys
  refine (nodup_append.mp hkeys).2.2 _ hgone _ (mem_append_right _ ?_) rfl
  exact mem_map.mpr ⟨record, hr, rfl⟩

theorem isSelectionCurrent_mem {providers : List ProviderRecord} {selection : ProviderSelection}
    (h : isSelectionCurrent providers selection = true) : ∃ provider ∈ providers,
      provider.info.id = selection.info.id ∧ provider.generation = selection.generation := by
  unfold isSelectionCurrent at h
  split at h
  · cases h
  · next record hfind =>
    have hid : record.info.id = selection.info.id := by simpa using List.find?_some hfind
    simp only [Bool.and_eq_true, decide_eq_true_eq] at h
    exact ⟨record, mem_of_find?_eq_some hfind, hid, h.1⟩

include ha in
theorem Alive.take {providerId : String} (hgone : gone = [])
    (hs : s'.operations = (takeOperations s providerId).1.operations) (hheap : s'.heap = s.heap)
    (hprovs : ∀ provider ∈ s.providers, provider.info.id ≠ providerId →
      provider ∈ s'.providers) : Alive (come ++ rest) s' := by
  subst hgone
  refine ha.of fun record hr => ?_
  rw [hs] at hr
  obtain ⟨hold, hoth⟩ := mem_filter.mp hr
  refine ⟨hold, by simp, fun ⟨provider, hp, hatt, hgen⟩ => .inr ⟨provider, ?_, ?_, ?_⟩⟩
  · refine hprovs provider hp ?_
    rw [← hatt.providerId]
    simpa using hoth
  · rw [hheap]; exact hatt
  · exact hgen

include hi ha in
theorem Alive.change {top : Option Frame} (hc : Change s top s' gone come)
    (hinsert : ∀ config selection binding operation,
      top = some (.open config (.inserting selection binding operation)) →
        isSelectionCurrent s.providers selection = true → (s.heap operation).closed = true →
          .removal operation ∈ gone ++ rest) : Alive (come ++ rest) s' := by
  cases hc with
  | same hcome hkeys hbinds hdoomed hremoval =>
    exact ha.of fun record hr => ⟨hr, fun h => hremoval _ h record hr rfl, .inr⟩
  | bind => exact ha.of fun record hr => ⟨hr, by simp, .inr⟩
  | drop binding => exact ha.of fun record hr => ⟨hr, by simp, .inr⟩
  | create =>
    refine ha.of fun record hr => ⟨hr, by simp, fun h => .inr (h.heap ?_ fun _ hp => hp)⟩
    exact update_of_ne (Nat.ne_of_lt (hi.known record hr)) ..
  | attach operation providerId info =>
    refine ha.of fun record hr => ⟨hr, by simp, fun h => .inr (h.heap ?_ fun _ hp => hp)⟩
    exact update_of_ne (hi.not_record (by simp [Token.key]) record hr) ..
  | clear operation info =>
    refine ha.of fun record hr => ⟨hr, by simp, fun h => .inr (h.heap ?_ fun _ hp => hp)⟩
    exact update_of_ne (hi.not_record (by simp [Token.key]) record hr) ..
  | insert config selection binding operation htop hcur =>
    intro record hr
    rcases mem_append.mp hr with hr | hr
    · rcases ha record hr with h | h
      · exact .inl (mem_append_right _ (by simpa using h))
      · exact .inr (h.heap rfl fun _ hp => hp)
    · rw [mem_singleton.mp hr]
      by_cases hcl : (s.heap operation).closed = true
      · have h := hinsert config selection binding operation htop hcur hcl
        exact .inl (mem_append_right _ (by simpa using h))
      · obtain ⟨provider, hp, hid, hgen⟩ := isSelectionCurrent_mem hcur
        have hok := hi.ok (.attached operation selection.info.id) (by simp)
        exact .inr ⟨provider, hp, hid ▸ hok.2 (by simpa using hcl), hgen⟩
  | close operation =>
    refine ha.of fun record hr => ⟨hr, by simp, fun h => ?_⟩
    by_cases hne : record.operation = operation
    · subst hne
      obtain ⟨provider, -, hatt, -⟩ := h
      have hid : (s.heap record.operation).close.info.id = some record.operation := by
        rw [← hatt.id]
        unfold Operation.close
        split <;> rfl
      rw [if_pos hatt.releaseCallback, hid]
      exact .inl (mem_singleton_self _)
    · exact .inr (h.heap (update_of_ne hne ..) fun _ hp => hp)
  | @remove removed hmem =>
    refine ha.of fun record hr => ?_
    obtain ⟨hold, hne⟩ := mem_filter.mp hr
    exact ⟨hold, by simpa using hne, .inr⟩
  | unregister providerId =>
    exact ha.take rfl rfl rfl fun provider hp hne => mem_filter.mpr ⟨hp, by simpa using hne⟩
  | invalidate providerId =>
    refine ha.take rfl rfl rfl fun provider hp hne => mem_map.mpr ⟨provider, hp, ?_⟩
    simp [hne]
  | register hnew =>
    refine ha.of fun record hr => ⟨hr, by simp, fun h => .inr (h.heap rfl fun provider hp => ?_)⟩
    exact (mem_orderedInsert _).mpr (.inr hp)
  | setState operation state =>
    refine ha.of fun record hr => ⟨hr, by simp, fun h => .inr ?_⟩
    by_cases hne : record.operation = operation
    · subst hne
      obtain ⟨provider, hp, hatt, hgen⟩ := h
      refine ⟨provider, hp, ?_, hgen⟩
      simp only [State.setOperation, update_self, Operation.setState, hatt.closed, Bool.false_eq_true, ↓reduceIte]
      exact ⟨rfl, hatt.releaseCallback, hatt.id, hatt.providerId⟩
    · exact h.heap (update_of_ne hne ..) fun _ hp => hp
  | returned hadded => exact ha.of fun record hr => ⟨hr, by simp, .inr⟩

end Alive

/-! ### Runs -/

theorem registry_inductive : dataFlowRegistry.Inductive InsertsOpen fun s => Inv (tokens s) s ∧ Alive (tokens s) s where
  init := by
    rintro s ⟨threads, rfl⟩
    have htoks : tokens (State.initial threads) = [] := by
      simp [tokens, State.initial]
    rw [htoks]
    refine ⟨⟨by simp, ?_, ?_, ?_, ?_, ?_, ?_⟩, ?_⟩ <;> simp [State.initial, Steps.keys, Alive]
  step := by
    rintro s a s' ⟨hi, ha⟩ hopen h
    obtain ⟨s₁, threads, gone, come, rest, hc, rfl, hold, hnew⟩ :=
      step_change hi.ok hi.keys hi.known h
    have hi₁ := hi.perm hold
    have ha₁ : Alive (gone ++ rest) s := fun record hr => (ha record hr).imp_left hold.mem_iff.mp
    have ha' := ha₁.change hi₁ hc fun config selection binding operation htop hcur hcl => by
      simp only [InsertsOpen, htop] at hopen
      exact hold.mem_iff.mp (hopen hcur hcl)
    obtain ⟨hok, hkeys, hknown, hcb, hadded, hret, hbinds⟩ :=
      (hi₁.change hc).perm hnew.symm
    exact ⟨⟨fun token ht => hok token ht, hkeys, hknown, hcb, hadded, hret, hbinds⟩,
      fun record hr => (ha' record hr).imp_left hnew.mem_iff.mpr⟩

/-- **No dead operation.** When no call is in progress, each record refers to an operation that is open
and whose provider is registered in the generation of the record, each operation that an open has
returned is closed or in the map, and each binding that an open has acquired is in one record or has
been released once. -/
theorem no_dead_operation {s : State} (hs : dataFlowRegistry.Reach InsertsOpen s)
    (hidle : ∀ frames ∈ s.threads, frames = []) :
    (∀ record ∈ s.operations, (s.heap record.operation).closed = false ∧
      ∃ provider ∈ s.providers, provider.info.id = (s.heap record.operation).info.providerId ∧
        provider.generation = record.providerGeneration) ∧
    (∀ operation ∈ s.returned, (s.heap operation).closed = false →
      ∃ record ∈ s.operations, record.operation = operation) ∧
    ∀ binding < s.nextBinding, (s.operations.map (·.binding)).count binding + s.released.count binding = 1 := by
  obtain ⟨hi, ha⟩ := registry_inductive.reach hs
  have hnone : tokens s = [] := by
    have hflat : s.threads.flatten = [] := flatten_eq_nil_iff.mpr hidle
    simp [tokens, hflat]
  rw [hnone] at hi ha
  refine ⟨fun record hr => ?_, fun operation hret hopen => ?_, fun binding hlt => ?_⟩
  · obtain ⟨provider, hp, hatt, hgen⟩ := (ha record hr).resolve_left (by simp)
    exact ⟨hatt.closed, provider, hp, hatt.providerId.symm, hgen⟩
  · rcases (hi.added operation (hi.returned operation hret)).2 with h | h | h
    · rw [hopen] at h; cases h
    · exact h
    · cases h
  · have hcnt := hi.bindings.count_eq binding
    simp only [filterMap_nil, nil_append, count_append] at hcnt
    rw [hcnt]
    exact count_eq_one_of_mem nodup_range (mem_range.mpr hlt)

/-- A provider is registered, and an operation opened up to the metadata. -/
def openingRun : List Action :=
  [.call 0 (.register 7 { id := "p", serviceName := "s", models := [.visual] }), .advance 0 .granted,
    .call 0 (.open {})] ++ List.replicate 4 (.advance 0 .granted)

/-- The operation is added and returned, and then closed. -/
def openedRun : List Action :=
  openingRun ++ List.replicate 4 (.advance 0 .granted) ++ [.call 0 (.open {})] ++
    List.replicate 8 (.advance 0 .granted) ++ [.call 1 (.close 0)] ++ List.replicate 4 (.advance 1 .granted)

theorem no_dead_operation_openedRun : ∃ s : State, s.operations = [⟨1, 1, 1⟩] ∧
    s.returned = [1, 0] ∧ s.released = [0] ∧ (s.heap 1).closed = false ∧
      (s.operations.map (·.binding)).count 0 + s.released.count 0 = 1 := by
  have hrun : ∃ s, dataFlowRegistry.execWhen InsertsOpen (State.initial 2) openedRun = some s ∧
      s.operations = [⟨1, 1, 1⟩] ∧ s.returned = [1, 0] ∧ s.released = [0] ∧ s.nextBinding = 2 ∧
        s.threads = [[], []] := by decide
  obtain ⟨s, hs, hops, hret, hrel, hnext, hths⟩ := hrun
  obtain ⟨hrecs, -, hbinds⟩ := no_dead_operation (.execWhen (.init ⟨2, rfl⟩) hs) (by simp [hths])
  exact ⟨s, hops, hret, hrel, (hrecs ⟨1, 1, 1⟩ (by simp [hops])).1, hbinds 0 (by omega)⟩

/-- The operation is closed before it gets the metadata, and then added. -/
def closedRun : List Action :=
  openingRun ++ [.call 1 (.close 0), .advance 1 .granted, .advance 1 .granted] ++ List.replicate 4 (.advance 0 .granted)

theorem closedRun_dead : ¬ ∀ s : State, dataFlowRegistry.Reachable s → (∀ frames ∈ s.threads, frames = []) →
      ∀ record ∈ s.operations, (s.heap record.operation).closed = false := by
  intro h
  have hrun : ∃ s, dataFlowRegistry.exec (State.initial 2) closedRun = some s ∧
      s.operations = [⟨0, 0, 1⟩] ∧ (s.heap 0).closed = true ∧ s.threads = [[], []] := by decide
  obtain ⟨s, hs, hops, hcl, hths⟩ := hrun
  have hopen := h s (.exec (.init ⟨2, rfl⟩) hs) (by simp [hths]) ⟨0, 0, 1⟩ (by simp [hops])
  rw [hcl] at hopen
  cases hopen

end Brookesia.DataFlow.Registry
