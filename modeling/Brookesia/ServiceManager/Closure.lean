import Brookesia.ServiceManager.Lifecycle

/-! # Dependencies of a service

While nothing is removed, the dependencies of a service run from the call of its `start` until its
`stop` has returned: the bind that starts it has them bound, a binding of it has them bound, and
`release` gives them back after it has stopped the service. -/

namespace Brookesia.ServiceManager.Closure

open Transition Service Model List
open Steps References
open Bindings Lifecycle

/-- The service has been started, and has not been stopped since. -/
def Active (s : State) (service : ServiceId) : Prop :=
  phaseOf (s.log service) ≠ some .idle

/-- `name` is registered with the dependency. -/
def DependsOn (cat : Catalog) (s : State) (name dependency : ServiceName) : Prop :=
  ∃ info, s.services name = some info ∧ dependency ∈ (cat info.service).dependencies

/-- What is registered as `name` runs. -/
def Running (s : State) (name : ServiceName) : Prop :=
  ∃ info, s.services name = some info ∧ info.state = .running ∧ (s.objects info.service).isRunning = true

section Closure
variable {cat : Catalog} {s : State} (hset : Settled cat s) (hinv : References.Inv s) (hi : Lifecycle.Inv s)
include hset hinv hi

theorem running_of_bound {reference : Reference} (h : reference ∈ references s) : Running s reference.name := by
  obtain ⟨info, hinfo, -, -, hstate⟩ := running_of_reference hset hinv h
  have hstat := ((hi.entry _ _ hinfo).of_running hstate).2
  exact ⟨info, hinfo, hstate, (status_eq_some.mp hstat).2⟩

variable {info : RuntimeServiceInfo} {name : ServiceName}

/-- An active service is bound, or a start or stop of it is in progress. -/
theorem active_held (hinfo : s.services name = some info) (hact : Active s info.service) :
    ∃ reference : Reference, reference.service = info.service ∧
      (reference ∈ references s ∨ ∃ t ∈ transitions s, t.1 = reference) := by
  have hown : ∀ reference : Reference, reference.registration = info.registration →
      (reference ∈ references s ∨ ∃ t ∈ transitions s, t.1 = reference) → reference.service = info.service := by
    intro reference hreg h
    obtain ⟨info', hinfo', hserv, hreg'⟩ := hset.resolved h
    have hname := hinv.unique _ _ _ _ hinfo' hinfo (hreg'.trans hreg)
    rw [hname, hinfo] at hinfo'
    cases hinfo'
    exact hserv.symm
  cases hi.entry _ _ hinfo with
  | stopped _ _ hstat => exact absurd (status_eq_some.mp hstat).1 hact
  | running hstate =>
    have hok := hinv.entry _ _ hinfo
    simp only [EntryOk, hstate] at hok
    obtain ⟨reference, hmem, hreg⟩ := countP_pos_iff.mp hok.2.1
    exact ⟨reference, hown reference (by simpa using hreg) (.inl hmem), .inl hmem⟩
  | @transition p x hone =>
    have hp : p ∈ underwayOf s info.registration := by rw [hone]; exact mem_singleton_self p
    obtain ⟨t, ht, -⟩ := mem_map.mp hp
    obtain ⟨hmem, hreg⟩ := mem_filter.mp ht
    have hheld : t.1 ∈ references s ∨ ∃ t' ∈ transitions s, t'.1 = t.1 := .inr ⟨t, hmem, rfl⟩
    exact ⟨t.1, hown t.1 (by simpa using hreg) hheld, hheld⟩

theorem dependency_running {dependency : ServiceName}
    (hinfo : s.services name = some info) (hact : Active s info.service)
    (hd : dependency ∈ (cat info.service).dependencies) : Running s dependency := by
  obtain ⟨reference, hserv, hheld⟩ := active_held hset hinv hi hinfo hact
  obtain ⟨r, hr, rfl⟩ := hset.dependency hheld (hserv ▸ hd)
  exact running_of_bound hset hinv hi hr

omit hset hinv in
theorem active_of_running (hinfo : s.services name = some info) (hstate : info.state = .running) :
    Active s info.service := by
  have hstat := ((hi.entry _ _ hinfo).of_running hstate).2
  rw [Active, (status_eq_some.mp hstat).1]
  simp

end Closure

/-- **Dependencies run.** In every state of a run in which nothing is removed, each direct or
transitive dependency of a service runs that has been started and has not been stopped since. -/
theorem dependencies_running {cat : Catalog} {s : State}
    (hs : (serviceManager cat).Reach NoRemoval s) {name dependency : ServiceName}
    {info : RuntimeServiceInfo} (hinfo : s.services name = some info)
    (hactive : Active s info.service)
    (hdepends : Relation.TransGen (DependsOn cat s) name dependency) : Running s dependency := by
  obtain ⟨⟨hset, hinv⟩, hi⟩ := (lifecycle_inductive cat).reach hs
  induction hdepends with
  | single hd =>
    obtain ⟨info', hinfo', hd⟩ := hd
    obtain rfl := Option.some.inj (hinfo'.symm.trans hinfo)
    exact dependency_running hset hinv hi hinfo hactive hd
  | tail _ hd ih =>
    obtain ⟨info', hinfo', hstate, -⟩ := ih
    obtain ⟨info₁, hinfo₁, hd⟩ := hd
    obtain rfl := Option.some.inj (hinfo₁.symm.trans hinfo')
    exact dependency_running hset hinv hi hinfo₁ (active_of_running hi hinfo₁ hstate) hd

/-- `x` depends on `y`, and `y` on `z`. -/
def chain : Catalog
  | 0 => { name := "x", dependencies := ["y"] }
  | 1 => { name := "y", dependencies := ["z"] }
  | _ => { name := "z" }

/-- The three are added, `x` is bound, and its binding is released up to the return of its `on_stop`. -/
def chainRun : List Action :=
  callRun (.init [] []) 4 ++ callRun (.add 0) 5 ++ callRun (.add 1) 5 ++ callRun (.add 2) 5 ++
    callRun (.bind 0 "x") 29 ++ callRun (.release 0) 6

theorem dependencies_running_chainRun : ∃ s : State, phaseOf (s.log 0) = some .stopping ∧ Running s "z" := by
  have hrun : ∃ s, (serviceManager chain).execWhen NoRemoval (State.initial 1 1) chainRun = some s ∧
      s.services "x" = some ⟨0, 0, .stopping, 0⟩ ∧ s.services "y" = some ⟨1, 1, .running, 1⟩ ∧
        phaseOf (s.log 0) = some .stopping := by decide
  obtain ⟨s, hs, hx, hy, hph⟩ := hrun
  have hxy : DependsOn chain s "x" "y" := ⟨_, hx, by decide⟩
  have hyz : DependsOn chain s "y" "z" := ⟨_, hy, by decide⟩
  exact ⟨s, hph, dependencies_running (.execWhen (.init ⟨1, 1, rfl⟩) hs) hx
    (by simp [Active, hph]) (.tail (.single hxy) hyz)⟩

end Brookesia.ServiceManager.Closure
