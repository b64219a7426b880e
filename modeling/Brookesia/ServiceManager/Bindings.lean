import Brookesia.ServiceManager.References

/-! # Bindings while nothing is removed

In the runs in which `remove_service` and `deinit` are not called and `init` has nothing to take back:

* every binding and every bind in progress belongs to the registration that is under its name
  (`Resolved`), and no step is made for another one (`Settled.ownEntries`);
* a binding holds bindings of the dependencies of its service, and so do they (`Closed`), wherever it
  is moved and however far its release has come (`Settled`, `settled_inductive`). -/

namespace Brookesia.ServiceManager.Bindings

open Transition Service Model List Option
open Steps References

/-- `init` is about to remove what it has added. -/
def takesBack : Frame → Bool
  | .init (.undoing (_ :: _)) => true
  | _ => false

def NoRemoval (s : State) : Action → Prop
  | .call _ (.remove _) | .call _ .deinit => False
  | a => (topFrame s a).all (!takesBack ·) = true

instance (s : State) (a : Action) : Decidable (NoRemoval s a) := by
  unfold NoRemoval
  split <;> infer_instance

/-! ### Entries -/

/-- The reference is for what is registered under its name. -/
def Resolved (s : State) (reference : Reference) : Prop :=
  ∃ info, s.services reference.name = some info ∧ info.service = reference.service ∧
    info.registration = reference.registration

/-- Every registration stays. -/
structure Extends (s s' : State) : Prop where
  services : ∀ name info, s.services name = some info → ∃ info', s'.services name = some info' ∧
    info'.service = info.service ∧ info'.registration = info.registration
  initialized : s.isInitialized = true → s'.isInitialized = true

variable {s s' : State}

theorem Resolved.mono {reference : Reference} (h : Resolved s reference)
    (he : Extends s s') : Resolved s' reference := by
  obtain ⟨info, hinfo, hserv, hreg⟩ := h
  obtain ⟨info', hinfo', hserv', hreg'⟩ := he.services _ _ hinfo
  exact ⟨info', hinfo', hserv'.trans hserv, hreg'.trans hreg⟩

theorem Extends.of_services (h : s'.services = s.services)
    (hinit : s.isInitialized = true → s'.isInitialized = true) : Extends s s' :=
  ⟨fun _ info hinfo => ⟨info, h ▸ hinfo, rfl, rfl⟩, hinit⟩

theorem Extends.setInfo {name : ServiceName} {info info' : RuntimeServiceInfo} (hinfo : s.services name = some info)
    (hservs : s'.services = Function.update s.services name (some info'))
    (hserv : info'.service = info.service) (hreg : info'.registration = info.registration)
    (hinit : s'.isInitialized = s.isInitialized) : Extends s s' := by
  refine ⟨fun name₁ info₁ hinfo₁ => ?_, hinit ▸ id⟩
  rw [hservs]
  by_cases hne : name₁ = name
  · subst hne
    obtain rfl : info = info₁ := some.inj (hinfo.symm.trans hinfo₁)
    exact ⟨info', Function.update_self .., hserv, hreg⟩
  · exact ⟨info₁, by rwa [Function.update_of_ne hne], rfl, rfl⟩

/-! ### Bindings -/

/-- After a reference come references to the dependencies of its service. -/
def Closed (cat : Catalog) : List Reference → Prop
  | [] => True
  | reference :: rest => (∀ dependency ∈ (cat reference.service).dependencies,
      ∃ r ∈ rest, r.name = dependency) ∧ Closed cat rest

theorem Closed.append {cat : Catalog} {b c : List Reference} (hb : Closed cat b)
    (hc : Closed cat c) : Closed cat (b ++ c) := by
  induction b with
  | nil => exact hc
  | cons reference rest ih =>
    refine ⟨fun dependency hd => ?_, ih hb.2⟩
    obtain ⟨r, hr, hname⟩ := hb.1 dependency hd
    exact ⟨r, mem_append_left _ hr, hname⟩

theorem Closed.dependency {cat : Catalog} {b : List Reference} (h : Closed cat b)
    {reference : Reference} (hmem : reference ∈ b) {dependency : ServiceName}
    (hd : dependency ∈ (cat reference.service).dependencies) :
    ∃ r ∈ b.tail, r.name = dependency := by
  induction b with
  | nil => cases hmem
  | cons first rest ih =>
    rcases mem_cons.mp hmem with rfl | hmem
    · exact h.1 dependency hd
    · obtain ⟨r, hr, hname⟩ := ih h.2 hmem
      exact ⟨r, mem_of_mem_tail hr, hname⟩

structure BindingOk (cat : Catalog) (s : State) (b : List Reference) : Prop where
  closed : Closed cat b
  resolved : ∀ reference ∈ b, Resolved s reference
  initialized : b ≠ [] → s.isInitialized = true

section Binding
variable {cat : Catalog} {s s' : State} {b c : List Reference}

theorem BindingOk.nil : BindingOk cat s [] := ⟨trivial, by simp, by simp⟩

theorem BindingOk.append (hb : BindingOk cat s b) (hc : BindingOk cat s c) : BindingOk cat s (b ++ c) := by
  refine ⟨hb.closed.append hc.closed, fun reference h => ?_, fun h => ?_⟩
  · exact (mem_append.mp h).elim (hb.resolved reference) (hc.resolved reference)
  · by_cases hnil : b = []
    · exact hc.initialized (by simpa [hnil] using h)
    · exact hb.initialized hnil

theorem BindingOk.tail {reference : Reference} (h : BindingOk cat s (reference :: b)) : BindingOk cat s b :=
  ⟨h.closed.2, fun r hr => h.resolved r (mem_cons_of_mem _ hr), fun _ => h.initialized (cons_ne_nil _ _)⟩

theorem BindingOk.mono (h : BindingOk cat s b) (he : Extends s s') : BindingOk cat s' b :=
  ⟨h.closed, fun r hr => (h.resolved r hr).mono he, fun hne => he.initialized (h.initialized hne)⟩

end Binding

/-! ### Frames -/

/-- What is bound, of the dependencies of the service `name`, but for those of `dependencies`. -/
def Covers (cat : Catalog) (s : State) (name : ServiceName) (bound : ServiceBinding)
    (dependencies : List ServiceName) : Prop :=
  ∃ info, s.services name = some info ∧ ∀ dependency ∈ (cat info.service).dependencies,
    dependency ∈ dependencies ∨ ∃ r ∈ bound, r.name = dependency

/-- The references of a frame, with the one that it starts or stops the service for. -/
def owned (frame : Frame) : List Reference := (underway frame).map (·.1) ++ held frame

/-- How far a frame has come; the calls that remove a service are not there. -/
def StageOk (cat : Catalog) (s : State) : Frame → Prop
  | .bind name stage => match stage with
    | .collecting => s.isInitialized = true
    | .resolving dependencies bound =>
      s.isInitialized = true ∧ Covers cat s name bound dependencies
    | .awaiting dependency dependencies bound =>
      s.isInitialized = true ∧ Covers cat s name bound (dependency :: dependencies)
    | .received dependency binding dependencies bound =>
      s.isInitialized = true ∧ Covers cat s name bound (dependency :: dependencies) ∧
        BindingOk cat s bound ∧ BindingOk cat s binding ∧ ∀ r ∈ binding.head?, r.name = dependency
    | .locking bound | .waiting _ bound => s.isInitialized = true ∧ Covers cat s name bound []
    | .orphaned _ _ | .orphanStopping _ _ _ => False
    | _ => True
  | .add _ (.initializing c) => c = .initializing ∨ c = .onInit
  | .remove _ _ | .deinit _ => False
  | _ => True

structure FrameOk (cat : Catalog) (s : State) (frame : Frame) : Prop where
  owned : BindingOk cat s (owned frame)
  stage : StageOk cat s frame

def StackOk (cat : Catalog) (s : State) (frames : List Frame) : Prop :=
  ∀ frame ∈ frames, FrameOk cat s frame

section Frames
variable {cat : Catalog} {s s' : State} {frame : Frame} {frames frames' : List Frame}

variable {bound : ServiceBinding}

theorem Covers.mono {name : ServiceName} {dependencies : List ServiceName}
    (h : Covers cat s name bound dependencies) (he : Extends s s') :
    Covers cat s' name bound dependencies := by
  obtain ⟨info, hinfo, hcov⟩ := h
  obtain ⟨info', hinfo', hserv, -⟩ := he.services _ _ hinfo
  exact ⟨info', hinfo', hserv ▸ hcov⟩

theorem FrameOk.mono (h : FrameOk cat s frame) (he : Extends s s') : FrameOk cat s' frame := by
  refine ⟨h.owned.mono he, ?_⟩
  have hstg := h.stage
  unfold StageOk at hstg ⊢
  split at hstg <;> try exact hstg
  split at hstg <;> try exact hstg
  · exact he.initialized hstg
  · exact ⟨he.initialized hstg.1, hstg.2.mono he⟩
  · exact ⟨he.initialized hstg.1, hstg.2.mono he⟩
  · exact ⟨he.initialized hstg.1, hstg.2.1.mono he, hstg.2.2.1.mono he, hstg.2.2.2.1.mono he, hstg.2.2.2.2⟩
  · exact ⟨he.initialized hstg.1, hstg.2.mono he⟩
  · exact ⟨he.initialized hstg.1, hstg.2.mono he⟩

theorem StackOk.cons (h : FrameOk cat s frame) (hs : StackOk cat s frames) : StackOk cat s (frame :: frames) :=
  forall_mem_cons.mpr ⟨h, hs⟩

theorem StackOk.uncons (hs : StackOk cat s (frame :: frames)) : FrameOk cat s frame ∧ StackOk cat s frames :=
  forall_mem_cons.mp hs

theorem releaseOf_ok {b : ServiceBinding} (hb : BindingOk cat s b) (hs : StackOk cat s frames) :
    StackOk cat s (releaseOf b frames) := by
  cases b with
  | nil => exact hs
  | cons reference rest => exact hs.cons ⟨hb, trivial⟩

theorem returnBinding_ok {name : ServiceName} {b : ServiceBinding}
    (h : returnBinding name b frames = some frames') (hs : StackOk cat s frames)
    (hb : BindingOk cat s b) (hname : ∀ r ∈ b.head?, r.name = name) : StackOk cat s frames' := by
  unfold returnBinding at h
  split at h
  · next caller dependency dependencies bound frames =>
    split at h
    · next heq =>
      cases h
      obtain ⟨hcaller, hrest⟩ := hs.uncons
      refine hrest.cons ⟨?_, hcaller.stage.1, hcaller.stage.2, hcaller.owned, hb, ?_⟩
      · exact hb.append hcaller.owned
      · exact heq ▸ hname
    · cases h
  · next target frames =>
    cases h
    exact hs.uncons.2.cons ⟨hb, trivial⟩
  · cases h

theorem returnAdded_ok (ok : Bool) (hs : StackOk cat s frames) : StackOk cat s (returnAdded cat ok frames) := by
  unfold returnAdded
  split
  · refine hs.uncons.2.cons ?_
    split <;> exact ⟨.nil, trivial⟩
  · exact hs

theorem BindingOk.cons {name : ServiceName} {info : RuntimeServiceInfo}
    (hb : BindingOk cat s bound) (hinfo : s.services name = some info)
    (hinit : s.isInitialized = true) (hcov : Covers cat s name bound []) :
    BindingOk cat s (⟨name, info.service, info.registration⟩ :: bound) := by
  obtain ⟨info', hinfo', hd⟩ := hcov
  obtain rfl : info = info' := some.inj (hinfo.symm.trans hinfo')
  refine ⟨⟨fun dependency h => (hd dependency h).resolve_left (by simp), hb.closed⟩, ?_, fun _ => hinit⟩
  exact forall_mem_cons.mpr ⟨⟨info, hinfo, rfl, rfl⟩, hb.resolved⟩

/-! ### Steps of a frame -/

variable {ok : Bool} {name : ServiceName}

theorem acquire_ok {info : RuntimeServiceInfo} (hs : StackOk cat s frames) (hb : BindingOk cat s bound)
    (hinfo : s.services name = some info) (hinit : s.isInitialized = true)
    (hcov : Covers cat s name bound [])
    (h : acquire s name info bound frames = some (s', frames')) :
    StackOk cat s frames' ∧ s'.bindings = s.bindings := by
  unfold acquire at h
  split at h
  · cases h; exact ⟨hs.cons ⟨hb, hinit, hcov⟩, rfl⟩
  · cases h; exact ⟨hs.cons ⟨hb, hinit, hcov⟩, rfl⟩
  · cases h; exact ⟨hs.cons ⟨hb.cons hinfo hinit hcov, trivial⟩, rfl⟩
  · obtain ⟨frames'', hr, he⟩ := map_eq_some_iff.mp h
    cases he
    exact ⟨returnBinding_ok hr hs (hb.cons hinfo hinit hcov) (by simp), rfl⟩

theorem bindStep_ok {stage : BindStage} (hs : StackOk cat s frames) (hfr : FrameOk cat s (.bind name stage))
    (h : bindStep cat s name ok frames stage = some (s', frames')) :
    StackOk cat s frames' ∧ s'.bindings = s.bindings := by
  have hreturn : ∀ {frames''}, (returnBinding name [] frames).map (s, ·) = some (s', frames'') →
      StackOk cat s frames'' ∧ s'.bindings = s.bindings := by
    intro frames'' h
    obtain ⟨frames'', hr, he⟩ := map_eq_some_iff.mp h
    cases he
    exact ⟨returnBinding_ok hr hs .nil (by simp), rfl⟩
  have hb := hfr.owned
  have hstg := hfr.stage
  cases stage with
  | entered =>
    simp only [bindStep] at h
    split at h
    · next hinit => cases h; exact ⟨hs.cons ⟨.nil, hinit⟩, rfl⟩
    · exact hreturn h
  | collecting =>
    simp only [bindStep] at h
    split at h
    · exact hreturn h
    · next info hinfo =>
      split at h
      · cases h
        exact ⟨hs.cons ⟨.nil, hstg, info, hinfo, fun _ => .inl⟩, rfl⟩
      · exact hreturn h
  | resolving dependencies bound =>
    cases dependencies with
    | nil => cases h; exact ⟨hs.cons ⟨hb, hstg⟩, rfl⟩
    | cons dependency dependencies =>
      cases h
      have hcaller : FrameOk cat s (.bind name (.awaiting dependency dependencies bound)) :=
        ⟨hb, hstg⟩
      exact ⟨(hs.cons hcaller).cons ⟨.nil, trivial⟩, rfl⟩
  | awaiting dependency dependencies bound => cases h
  | received dependency binding dependencies bound =>
    obtain ⟨hinit, ⟨info, hinfo, hcov⟩, hbound, hbinding, hname⟩ := hstg
    simp only [bindStep] at h
    cases h
    refine ⟨hs.cons ?_, rfl⟩
    split
    · next hvalid =>
      refine ⟨hbound.append hbinding, hinit, info, hinfo, fun d hd => ?_⟩
      rcases hcov d hd with hd | ⟨r, hr, heq⟩
      · rcases mem_cons.mp hd with rfl | hd
        · cases binding with
          | nil => cases hvalid
          | cons r rest => exact .inr ⟨r, by simp, hname r rfl⟩
        · exact .inl hd
      · exact .inr ⟨r, mem_append_left _ hr, heq⟩
    · exact ⟨hb, trivial⟩
  | locking bound =>
    simp only [bindStep] at h
    split at h
    · cases h; exact ⟨hs.cons ⟨hb, trivial⟩, rfl⟩
    · next info hinfo => exact acquire_ok hs hb hinfo hstg.1 hstg.2 h
  | waiting registration bound =>
    simp only [bindStep] at h
    split at h
    · cases h
    · next info hinfo =>
      split at h
      · exact acquire_ok hs hb hinfo hstg.1 hstg.2 h
      · cases h
  | marked registration service bound => cases h; exact ⟨hs.cons ⟨hb, trivial⟩, rfl⟩
  | starting registration service c bound =>
    simp only [bindStep] at h
    rcases call_eq h with ⟨b, c', -, he⟩ | ⟨b, result, -, he⟩ <;> cases he <;>
      exact ⟨hs.cons ⟨hb, trivial⟩, rfl⟩
  | started registration service result bound =>
    obtain ⟨info, hinfo, hserv, hreg⟩ := hb.resolved _ (mem_cons_self ..)
    cases result with
    | true =>
      simp only [bindStep, hinfo] at h
      obtain ⟨frames'', hr, he⟩ := map_eq_some_iff.mp h
      cases he
      rw [hserv, hreg] at hr
      exact ⟨returnBinding_ok hr hs hb (by simp), rfl⟩
    | false =>
      simp only [bindStep, hinfo] at h
      cases h
      exact ⟨hs.cons ⟨hb.tail, trivial⟩, rfl⟩
  | orphaned service bound => cases hstg
  | orphanStopping service c bound => cases hstg
  | failing bound =>
    cases h
    exact ⟨releaseOf_ok hb (hs.cons ⟨.nil, trivial⟩), rfl⟩
  | failed => exact hreturn h

theorem releaseStep_ok {reference : Reference} {rest : ServiceBinding} {stage : ReleaseStage}
    (hs : StackOk cat s frames) (hfr : FrameOk cat s (.release stage reference rest))
    (h : releaseStep s reference rest ok frames stage = some (s', frames')) :
    StackOk cat s frames' ∧ s'.bindings = s.bindings := by
  have hb := hfr.owned
  have hgone : BindingOk cat s rest → StackOk cat s (releaseOf rest frames) :=
    fun hrest => releaseOf_ok hrest hs
  cases stage with
  | calling =>
    simp only [releaseStep] at h
    cases h
    refine ⟨?_, rfl⟩
    split
    · exact hs.cons ⟨hb, trivial⟩
    · exact hgone hb.tail
  | unbinding =>
    simp only [releaseStep] at h
    cases h
    refine ⟨?_, rfl⟩
    split
    · exact hs.cons ⟨hb, trivial⟩
    · exact hgone hb.tail
  | locking =>
    obtain ⟨info, hinfo, hserv, -⟩ := hb.resolved _ (mem_cons_self ..)
    simp only [releaseStep, hinfo] at h
    split at h
    · cases h; exact ⟨hgone hb.tail, rfl⟩
    · split at h
      · split at h
        · cases h; exact ⟨hs.cons ⟨hserv ▸ hb, trivial⟩, rfl⟩
        · cases h; exact ⟨hgone hb.tail, rfl⟩
      · cases h; exact ⟨hgone hb.tail, rfl⟩
  | marked service => cases h; exact ⟨hs.cons ⟨hb, trivial⟩, rfl⟩
  | stopping service c =>
    simp only [releaseStep] at h
    rcases call_eq h with ⟨b, c', -, he⟩ | ⟨b, result, -, he⟩ <;> cases he <;>
      exact ⟨hs.cons ⟨hb, trivial⟩, rfl⟩
  | stopped service =>
    simp only [releaseStep] at h
    split at h
    · cases h; exact ⟨hgone hb.tail, rfl⟩
    · cases h
      refine ⟨hgone hb.tail, ?_⟩
      split <;> rfl

theorem addStep_ok {service : ServiceId} {stage : AddStage} (hs : StackOk cat s frames)
    (hfr : FrameOk cat s (.add service stage))
    (h : addStep cat s service ok frames stage = some (s', frames')) :
    StackOk cat s frames' ∧ s'.bindings = s.bindings := by
  cases stage with
  | checking =>
    simp only [addStep] at h
    split at h
    · cases h; exact ⟨returnAdded_ok true hs, rfl⟩
    · cases h; exact ⟨hs.cons ⟨.nil, trivial⟩, rfl⟩
  | testing =>
    simp only [addStep] at h
    cases h
    refine ⟨hs.cons ?_, rfl⟩
    split
    · exact ⟨.nil, trivial⟩
    · exact ⟨.nil, .inl rfl⟩
  | initializing c =>
    simp only [addStep] at h
    rcases call_eq h with ⟨b, c', hc, he⟩ | ⟨b, result, -, he⟩ <;> cases he
    · refine ⟨hs.cons ⟨.nil, ?_⟩, rfl⟩
      -- from `initializing` a call goes to `onInit`, and from there it returns
      rcases hfr.stage with rfl | rfl
      · simp only [callStep] at hc
        split at hc <;> [cases hc; split at hc] <;> [cases hc; split at hc]
        · cases hc; exact .inr rfl
        · cases hc
      · cases hc
    · refine ⟨?_, rfl⟩
      split
      · exact hs.cons ⟨.nil, trivial⟩
      · exact returnAdded_ok false hs
  | emplacing =>
    simp only [addStep] at h
    split at h <;> cases h <;> exact ⟨returnAdded_ok true hs, rfl⟩

theorem initStep_ok {stage : InitStage} (hs : StackOk cat s frames) (hback : takesBack (.init stage) = false)
    (h : initStep s frames stage = some (s', frames')) :
    StackOk cat s frames' ∧ s'.bindings = s.bindings := by
  have hinit : ∀ stage, StackOk cat s (.init stage :: frames) := fun _ => hs.cons ⟨.nil, trivial⟩
  cases stage with
  | locking builtins services =>
    simp only [initStep] at h
    split at h
    · cases h
    · split at h <;> cases h
      · exact ⟨hs, rfl⟩
      · exact ⟨hinit _, rfl⟩
  | adding added builtins services =>
    cases builtins with
    | nil => cases h; exact ⟨hinit _, rfl⟩
    | cons service builtins => cases h; exact ⟨(hinit _).cons ⟨.nil, trivial⟩, rfl⟩
  | awaiting added service builtins services => cases h
  | undoing added =>
    cases added with
    | nil => cases h; exact ⟨hs, rfl⟩
    | cons name added => cases hback
  | registering services =>
    cases services with
    | nil => cases h; exact ⟨hinit _, rfl⟩
    | cons service services => cases h; exact ⟨(hinit _).cons ⟨.nil, trivial⟩, rfl⟩
  | setting => cases h; exact ⟨hs, rfl⟩

theorem frameStep_ok (hs : StackOk cat s (frame :: frames)) (hback : takesBack frame = false)
    (hb : ∀ b ∈ s.bindings, BindingOk cat s b)
    (h : frameStep cat s ok frames frame = some (s', frames')) :
    StackOk cat s frames' ∧ ∀ b ∈ s'.bindings, BindingOk cat s b := by
  obtain ⟨hfr, hrest⟩ := hs.uncons
  have hsame : StackOk cat s frames' ∧ s'.bindings = s.bindings →
      StackOk cat s frames' ∧ ∀ b ∈ s'.bindings, BindingOk cat s b :=
    fun ⟨h1, h2⟩ => ⟨h1, h2 ▸ hb⟩
  cases frame with
  | bind name stage => exact hsame (bindStep_ok hrest hfr h)
  | binding target => cases h
  | assign target binding =>
    have hset : ∀ c, BindingOk cat s c → ∀ b ∈ s.bindings.set target c, BindingOk cat s b := by
      intro c hc b hmem
      rcases mem_or_eq_of_mem_set hmem with hmem | rfl
      · exact hb b hmem
      · exact hc
    simp only [frameStep] at h
    split at h
    · cases h
    · cases h; exact ⟨hrest, hset _ hfr.owned⟩
    · next reference rest hfull =>
      cases h
      exact ⟨hs.cons ⟨hb _ (mem_of_getElem? hfull), trivial⟩, hset _ .nil⟩
  | release stage reference rest => exact hsame (releaseStep_ok hrest hfr h)
  | add service stage => exact hsame (addStep_ok hrest hfr h)
  | remove name stage => exact hfr.stage.elim
  | init stage => exact hsame (initStep_ok hrest hback h)
  | deinit stage => exact hfr.stage.elim

end Frames

/-! ### Steps -/

/-- Bindings, frames and entries as they are while nothing is removed. -/
structure Settled (cat : Catalog) (s : State) : Prop where
  frames : ∀ frames ∈ s.threads, StackOk cat s frames
  bindings : ∀ b ∈ s.bindings, BindingOk cat s b
  named : ∀ name info, s.services name = some info → (cat info.service).name = name

section Step
variable {cat : Catalog} {s s₁ s' : State} {a : Action}

theorem Settled.top (hs : Settled cat s) : ∀ frame ∈ topFrame s a, FrameOk cat s frame := by
  intro frame htop
  cases a with
  | call t c => cases htop
  | advance t ok =>
    obtain ⟨frames, hstk, hhead⟩ := bind_eq_some_iff.mp htop
    exact hs.frames _ (mem_of_getElem? hstk) _ (mem_of_mem_head? hhead)

theorem change_extends {top : Option Frame} {gone come : List Reference}
    {ended begun : List Steps.Transition} (htop : ∀ frame ∈ top, FrameOk cat s frame)
    (hnamed : ∀ name info, s.services name = some info → (cat info.service).name = name)
    (hc : Change cat s top s₁ gone come ended begun) :
    Extends s s₁ ∧ ∀ name info, s₁.services name = some info → (cat info.service).name = name := by
  have hsame : s₁.services = s.services → (s.isInitialized = true → s₁.isInitialized = true) →
      Extends s s₁ ∧ ∀ name info, s₁.services name = some info → (cat info.service).name = name :=
    fun h hinit => ⟨.of_services h hinit, h ▸ hnamed⟩
  have hset : ∀ {name info info'}, s.services name = some info →
      info'.service = info.service → info'.registration = info.registration →
        Extends s (s.setInfo name info') ∧ ∀ name₁ info₁,
          (s.setInfo name info').services name₁ = some info₁ → (cat info₁.service).name = name₁ := by
    intro name info info' hinfo hserv hreg
    refine ⟨.setInfo hinfo rfl hserv hreg rfl, fun name₁ info₁ h => ?_⟩
    by_cases hne : name₁ = name
    · subst hne
      have hself : (s.setInfo name₁ info').services name₁ = some info' := Function.update_self ..
      obtain rfl : info' = info₁ := some.inj (hself.symm.trans h)
      exact hserv ▸ hnamed _ _ hinfo
    · exact hnamed _ _ ((Function.update_of_ne hne ..).symm.trans h)
  cases hc with
  | quiet h => exact hsame h.services h.isInitialized
  | proceed reference h => cases h <;> exact hsame rfl id
  | mark hinfo | share hinfo | finish _ _ hinfo | fail _ _ hinfo | unbind _ hinfo | last _ hinfo
    | lastIdle _ hinfo | stopped _ hinfo => exact hset hinfo rfl rfl
  | lost | skip | miss | overtaken | prepare => exact hsame rfl id
  | @register service hnone =>
    refine ⟨⟨fun name info hinfo => ?_, id⟩, fun name info hinfo => ?_⟩
    · have hne : name ≠ (cat service).name := by
        rintro rfl
        rw [hnone] at hinfo
        cases hinfo
      exact ⟨info, (Function.update_of_ne hne ..).trans hinfo, rfl, rfl⟩
    · by_cases hne : name = (cat service).name
      · subst hne
        cases (Function.update_self ..).symm.trans hinfo
        rfl
      · exact hnamed _ _ ((Function.update_of_ne hne ..).symm.trans hinfo)
  | erase h => exact (htop _ h).stage.elim
  | unset h => exact (htop _ h).stage.elim
  | @foreign frame s' h hforeign =>
    have hstg := (htop _ h).stage
    unfold foreign at hforeign
    split at hforeign <;> first | exact hstg.elim | cases hforeign

theorem Settled.next (hs : Settled cat s) {t : ThreadId} {frames : List Frame} (hext : Extends s s')
    (hnamed : ∀ name info, s'.services name = some info → (cat info.service).name = name)
    (hths : s'.threads = s.threads.set t frames) (hfrs : StackOk cat s frames)
    (hb : ∀ b ∈ s'.bindings, BindingOk cat s b) : Settled cat s' := by
  refine ⟨fun frames' h => ?_, fun b h => (hb b h).mono hext, hnamed⟩
  rw [hths] at h
  rcases mem_or_eq_of_mem_set h with h | rfl
  · exact fun frame hfr => (hs.frames _ h frame hfr).mono hext
  · exact fun frame hfr => (hfrs frame hfr).mono hext

theorem callFrames_ok (hs : Settled cat s) {t : ThreadId} {c : Call} {frames : List Frame}
    (hc : NoRemoval s (.call t c)) (h : callFrames s c = some (s', frames)) :
    StackOk cat s frames ∧ ∀ b ∈ s'.bindings, BindingOk cat s b := by
  have hset : ∀ x : Variable, ∀ b ∈ s.bindings.set x [], BindingOk cat s b := by
    intro x b hmem
    rcases mem_or_eq_of_mem_set hmem with hmem | rfl
    · exact hs.bindings b hmem
    · exact .nil
  have hnil : StackOk cat s [] := by simp [StackOk]
  cases c with
  | bind target name =>
    cases h
    have hcaller : FrameOk cat s (.binding target) := ⟨.nil, trivial⟩
    exact ⟨(hnil.cons hcaller).cons ⟨.nil, trivial⟩, hs.bindings⟩
  | release target =>
    obtain ⟨b, hb, he⟩ := map_eq_some_iff.mp h
    cases he
    exact ⟨releaseOf_ok (hs.bindings _ (mem_of_getElem? hb)) hnil, hset target⟩
  | move target source =>
    simp only [callFrames] at h
    split at h
    · cases h; exact ⟨hnil, hs.bindings⟩
    · obtain ⟨b, hb, he⟩ := map_eq_some_iff.mp h
      cases he
      exact ⟨hnil.cons ⟨hs.bindings _ (mem_of_getElem? hb), trivial⟩, hset source⟩
  | add service => cases h; exact ⟨hnil.cons ⟨.nil, trivial⟩, hs.bindings⟩
  | remove name => exact hc.elim
  | init builtins services => cases h; exact ⟨hnil.cons ⟨.nil, trivial⟩, hs.bindings⟩
  | deinit => exact hc.elim

theorem Settled.step (hs : Settled cat s) (hno : NoRemoval s a) (h : step cat s a = some s') :
    Extends s s' ∧ Settled cat s' := by
  obtain ⟨s₁, gone, come, ended, begun, hc, hagree, -, -⟩ := step_change h
  obtain ⟨he, hnamed⟩ := change_extends hs.top hs.named hc
  have hext : Extends s s' :=
    ⟨hagree.services ▸ he.services, hagree.isInitialized ▸ he.initialized⟩
  refine ⟨hext, ?_⟩
  rw [← hagree.services] at hnamed
  cases a with
  | call t c =>
    simp only [Model.step] at h
    split at h
    · obtain ⟨⟨s₂, frames⟩, hf, rfl⟩ := map_eq_some_iff.mp h
      obtain ⟨hfrs, hb⟩ := callFrames_ok hs hno hf
      obtain ⟨-, hths, -, -⟩ := callFrames_effect hf
      exact hs.next hext hnamed (congrArg (·.set t frames) hths) hfrs hb
    · cases h
  | advance t ok =>
    simp only [Model.step] at h
    split at h
    · next frame frames hstk =>
      obtain ⟨⟨s₂, frames'⟩, hf, rfl⟩ := map_eq_some_iff.mp h
      have hback : takesBack frame = false := by
        simpa [NoRemoval, topFrame, hstk] using hno
      obtain ⟨hfrs, hb⟩ :=
        frameStep_ok (hs.frames _ (mem_of_getElem? hstk)) hback hs.bindings hf
      obtain ⟨hths, -⟩ := frameStep_effect hf
      exact hs.next hext hnamed (congrArg (·.set t frames') hths) hfrs hb
    · cases h

/-! ### What a settled state says -/

theorem Settled.ownEntries (hs : Settled cat s) (a : Action) : OwnEntries s a := by
  intro frame htop
  have hb := (hs.top frame htop).owned
  unfold KeepsEntry
  split
  · intro hinit
    rw [hb.initialized (cons_ne_nil _ _)] at hinit
    cases hinit
  · intro hinit
    rw [hb.initialized (cons_ne_nil _ _)] at hinit
    cases hinit
  · intro info hinfo
    obtain ⟨info', hinfo', -, hreg⟩ := hb.resolved _ (mem_cons_self ..)
    obtain rfl : info' = info := some.inj (hinfo'.symm.trans hinfo)
    exact .inl hreg
  · intro info hinfo
    obtain ⟨info', hinfo', -, hreg⟩ := hb.resolved _ (mem_cons_self ..)
    obtain rfl : info' = info := some.inj (hinfo'.symm.trans hinfo)
    exact hreg
  · trivial

variable {reference : Reference}

theorem mem_held_of_mem_tail {frame : Frame} (h : reference ∈ (owned frame).tail) : reference ∈ held frame := by
  unfold owned at h
  have hcases : underway frame = [] ∨ ∃ t, underway frame = [t] := by
    unfold underway
    split <;> try split
    all_goals first | exact .inl rfl | exact .inr ⟨_, rfl⟩
  rcases hcases with hnil | ⟨t, hone⟩
  · rw [hnil] at h
    exact mem_of_mem_tail h
  · rw [hone] at h
    exact h

/-- An unreleased binding, or one that a start or a stop is made for, stands in a list after which
only unreleased bindings come. -/
theorem Settled.holds (hs : Settled cat s) (h : reference ∈ references s ∨ ∃ t ∈ transitions s, t.1 = reference) :
    ∃ b, BindingOk cat s b ∧ reference ∈ b ∧ ∀ r ∈ b.tail, r ∈ references s := by
  have hfr : ∀ frame ∈ s.threads.flatten, reference ∈ owned frame →
      ∃ b, BindingOk cat s b ∧ reference ∈ b ∧ ∀ r ∈ b.tail, r ∈ references s := by
    intro frame hmem hr
    obtain ⟨frames, hfrs, hfr⟩ := mem_flatten.mp hmem
    refine ⟨owned frame, (hs.frames _ hfrs _ hfr).owned, hr, fun r h => ?_⟩
    exact mem_append_right _ (mem_flatMap.mpr ⟨frame, hmem, mem_held_of_mem_tail h⟩)
  rcases h with h | ⟨t, h, rfl⟩
  · rcases mem_append.mp h with h | h
    · obtain ⟨b, hb, hr⟩ := mem_flatten.mp h
      refine ⟨b, hs.bindings b hb, hr, fun r h => ?_⟩
      exact mem_append_left _ (mem_flatten.mpr ⟨b, hb, mem_of_mem_tail h⟩)
    · obtain ⟨frame, hmem, hr⟩ := mem_flatMap.mp h
      exact hfr frame hmem (mem_append_right _ hr)
  · obtain ⟨frame, hmem, ht⟩ := mem_flatMap.mp h
    exact hfr frame hmem (mem_append_left _ (List.mem_map_of_mem ht))

theorem Settled.resolved (hs : Settled cat s) (h : reference ∈ references s ∨ ∃ t ∈ transitions s, t.1 = reference) :
    Resolved s reference := by
  obtain ⟨b, hb, hmem, -⟩ := hs.holds h
  exact hb.resolved _ hmem

theorem Settled.dependency (hs : Settled cat s) {reference : Reference}
    (h : reference ∈ references s ∨ ∃ t ∈ transitions s, t.1 = reference)
    {dependency : ServiceName} (hd : dependency ∈ (cat reference.service).dependencies) :
    ∃ r ∈ references s, r.name = dependency := by
  obtain ⟨b, hb, hmem, htail⟩ := hs.holds h
  obtain ⟨r, hr, hname⟩ := hb.closed.dependency hmem hd
  exact ⟨r, htail r hr, hname⟩

end Step

/-! ### Runs -/

theorem settled_inductive (cat : Catalog) :
    (serviceManager cat).Inductive NoRemoval fun s => Settled cat s ∧ References.Inv s where
  init := by
    refine fun s hs => ⟨?_, (inv_inductive cat).init s hs⟩
    obtain ⟨bindings, threads, rfl⟩ := hs
    refine ⟨fun frames h => ?_, fun b h => ?_, by simp [State.initial]⟩
    · rw [eq_of_mem_replicate h]
      simp [StackOk]
    · rw [eq_of_mem_replicate h]
      exact .nil
  step s a s' hs hno h :=
    ⟨(hs.1.step hno h).2, (inv_inductive cat).step s a s' hs.2 (hs.1.ownEntries a) h⟩

end Brookesia.ServiceManager.Bindings
