import Brookesia.Data.Kahn
import Brookesia.Data.SortedMap

/-! # The order in which services are initialised

`topological_sort` of the registered services, `add_all_registered_services`, which adds them in that order, and
`remove_all_registered_services`, which goes back over `service_init_order_`. A registry has services under names; what a service says
of itself are its attributes, and another name may be there. Whether the `init` of a service succeeds is from outside. The stops before
the removals and the threads are not modelled.

* `Added`: what adding the services in a sorted order keeps.
* `removeAllRegisteredServices_eq`: the services are deinitialised from the last that was added to the first. -/

namespace Brookesia.ServiceManager.InitOrder

open Data List

variable {σ : Type}

structure Attributes where
  name : String
  dependencies : List String

/-! ### The sort -/

section Sorting

variable (attributes : σ → Attributes) (all : SortedMap String σ)

def dependencies (name : String) : List String :=
  ((all.entries.lookup name).map fun service => (attributes service).dependencies).getD []

def topologicalSort : List String := Kahn.topologicalSort (all.entries.map Prod.fst) (dependencies attributes all)

variable {attributes all}

theorem nodup_names : (all.entries.map Prod.fst).Nodup :=
  pairwise_map.mpr (all.sorted.imp ne_of_lt)

theorem mem_names {name : String} {service : σ} (h : all.entries.lookup name = some service) : name ∈ all.entries.map Prod.fst := by
  obtain ⟨before, after, heq, -⟩ := lookup_eq_some_iff.mp h
  rw [heq, map_append, map_cons]
  exact mem_append_right _ mem_cons_self

end Sorting

/-! ### The manager -/

/-- `services_`, in the order in which they were added, and `service_init_order_`. -/
structure Manager (σ : Type) where
  services : List σ
  initOrder : List String

variable (attributes : σ → Attributes) (inits : σ → Bool) (all : SortedMap String σ)

def Manager.find? (m : Manager σ) (name : String) : Option σ := m.services.find? fun service => (attributes service).name == name

/-- The service is initialised, or its `init` succeeds, which a service without a name does not. -/
def initializes (service : σ) : Bool := (attributes service).name != "" && inits service

def addService (m : Manager σ) (service : σ) : Manager σ :=
  if (m.find? attributes (attributes service).name).isSome then m
  else if initializes attributes inits service then
    { services := m.services ++ [service], initOrder := m.initOrder ++ [(attributes service).name] }
  else m

/-- A turn of the loop of `add_all_registered_services`. -/
def addRegistered (m : Manager σ) (name : String) : Manager σ :=
  match all.entries.lookup name with
  | some service => addService attributes inits m service
  | none => m

def addAllRegisteredServices (m : Manager σ) : Manager σ :=
  (topologicalSort attributes all).foldl (addRegistered attributes inits all) m

/-- `remove_service`, with the service that is deinitialised, and the result. -/
def removeService (m : Manager σ) (name : String) : Manager σ × List σ × Bool :=
  if name = "" then (m, [], false)
  else
    match m.find? attributes name with
    | none => (m, [], true)
    | some service =>
      ({ services := m.services.filter fun s => (attributes s).name != name, initOrder := m.initOrder.filter (· != name) },
        [service], true)

/-- The loop of `remove_all_registered_services`, for a number of turns, with the services that are deinitialised. -/
def removeAllRegisteredServices : ℕ → Manager σ → Option (Manager σ × List σ)
  | 0, _ => none
  | turns + 1, m =>
    match m.initOrder.getLast? with
    | none => some (m, [])
    | some name =>
      let r := removeService attributes m name
      let m' := if r.2.2 then r.1 else { r.1 with initOrder := r.1.initOrder.filter (· != name) }
      (removeAllRegisteredServices turns m').map fun rest => (rest.1, r.2.1 ++ rest.2)

/-- `service_init_order_` has the services of `services_`. -/
structure Manager.WellFormed (m : Manager σ) : Prop where
  order : m.initOrder = m.services.map fun service => (attributes service).name
  nodup : m.initOrder.Nodup
  named : "" ∉ m.initOrder

variable {attributes inits all} {m : Manager σ}

variable {name : String} {service : σ}

theorem find?_eq_none :
    m.find? attributes name = none ↔ name ∉ m.services.map fun service => (attributes service).name := by
  unfold Manager.find?
  simp [List.find?_eq_none]

theorem find?_isSome :
    (m.find? attributes name).isSome = true ↔ name ∈ m.services.map fun service => (attributes service).name := by
  rw [← not_iff_not, ← find?_eq_none]
  simp

/-! ### Removing -/

theorem removeService_last {services : List σ}
    (h : (⟨services ++ [service], (services ++ [service]).map fun s => (attributes s).name⟩ : Manager σ).WellFormed attributes) :
    removeService attributes ⟨services ++ [service], (services ++ [service]).map fun s => (attributes s).name⟩
        (attributes service).name =
      (⟨services, services.map fun s => (attributes s).name⟩, [service], true) := by
  have hnd := h.nodup
  have hnamed := h.named
  rw [map_append, map_singleton] at hnd hnamed
  have hne : (attributes service).name ≠ "" := by
    intro hname
    exact hnamed (mem_append_right _ (hname ▸ mem_singleton_self _))
  have hnew : ∀ s ∈ services, (attributes s).name ≠ (attributes service).name := by
    intro s hs hname
    have hdisjoint := (nodup_append.mp hnd).2.2
    exact hdisjoint _ (mem_map_of_mem hs) _ (mem_singleton_self _) hname
  have hfind : (⟨services ++ [service], (services ++ [service]).map fun s => (attributes s).name⟩ : Manager σ).find? attributes
      (attributes service).name = some service := by
    unfold Manager.find?
    rw [List.find?_append, List.find?_eq_none.mpr fun s hs => by simpa using hnew s hs]
    simp
  have hservs : (services ++ [service]).filter (fun s => (attributes s).name != (attributes service).name) = services := by
    rw [filter_append, filter_eq_self.mpr fun s hs => by simpa using hnew s hs]
    simp
  have horder : ((services ++ [service]).map fun s => (attributes s).name).filter (· != (attributes service).name) =
      services.map fun s => (attributes s).name := by
    rw [filter_map]
    exact congrArg (List.map fun s => (attributes s).name) hservs
  unfold removeService
  rw [if_neg hne, hfind]
  dsimp only
  rw [hservs, horder]

theorem wellFormed_dropLast {services : List σ}
    (h : (⟨services ++ [service], (services ++ [service]).map fun s => (attributes s).name⟩ : Manager σ).WellFormed attributes) :
    (⟨services, services.map fun s => (attributes s).name⟩ : Manager σ).WellFormed attributes := by
  have hnd := h.nodup
  have hnamed := h.named
  rw [map_append] at hnd hnamed
  exact ⟨rfl, (nodup_append.mp hnd).1, fun hmem => hnamed (mem_append_left _ hmem)⟩

/-- One turn for each service, and one more, deinitialise them from the last to the first. -/
theorem removeAllRegisteredServices_eq (h : m.WellFormed attributes) :
    removeAllRegisteredServices attributes (m.services.length + 1) m = some (⟨[], []⟩, m.services.reverse) := by
  obtain ⟨services, initOrder⟩ := m
  obtain rfl : initOrder = services.map fun s => (attributes s).name := h.order
  show removeAllRegisteredServices attributes (services.length + 1) _ = some (_, services.reverse)
  induction services using List.reverseRecOn with
  | nil => rfl
  | append_singleton services service ih =>
    have hlast : ((services ++ [service]).map fun s => (attributes s).name).getLast? = some (attributes service).name := by
      rw [map_append, map_singleton, List.getLast?_concat]
    rw [length_append, length_singleton]
    unfold removeAllRegisteredServices
    rw [hlast]
    dsimp only
    rw [removeService_last h]
    dsimp only
    rw [if_pos rfl, ih (wellFormed_dropLast h), reverse_append]
    rfl

/-! ### Adding -/

theorem addService_of_mem (h : (attributes service).name ∈ m.services.map fun s => (attributes s).name) :
    addService attributes inits m service = m := by
  unfold addService
  rw [if_pos (find?_isSome.mpr h)]

theorem addService_of_notMem (h : (attributes service).name ∉ m.services.map fun s => (attributes s).name) :
    addService attributes inits m service =
      if initializes attributes inits service then
        { services := m.services ++ [service], initOrder := m.initOrder ++ [(attributes service).name] }
      else m := by
  unfold addService
  rw [if_neg fun hsome => h (find?_isSome.mp hsome)]

theorem wellFormed_addService (h : m.WellFormed attributes) (inits : σ → Bool) (service : σ) :
    (addService attributes inits m service).WellFormed attributes := by
  by_cases hmem : (attributes service).name ∈ m.services.map fun s => (attributes s).name
  · rw [addService_of_mem hmem]
    exact h
  · rw [addService_of_notMem hmem]
    split
    · next hinit =>
      have hne : (attributes service).name ≠ "" := by
        unfold initializes at hinit
        simpa using (Bool.and_eq_true_iff.mp hinit).1
      constructor
      · show m.initOrder ++ [(attributes service).name] = (m.services ++ [service]).map fun s => (attributes s).name
        rw [map_append, h.order]
        rfl
      · exact nodup_append.mpr ⟨h.nodup, nodup_singleton _, fun a ha b hb hab => by
          rw [mem_singleton] at hb
          exact hmem (h.order ▸ hb ▸ hab ▸ ha)⟩
      · intro hemp
        rcases mem_append.mp hemp with hold | hnew
        · exact h.named hold
        · exact hne (mem_singleton.mp hnew).symm
    · exact h

/-- The services of the names `done` were added to `m`, each after its dependencies. -/
structure Added (attributes : σ → Attributes) (inits : σ → Bool) (all : SortedMap String σ) (m : Manager σ) (done : List String)
    (m' : Manager σ) : Prop where
  wellFormed : m'.WellFormed attributes
  handled : ∀ name ∈ done, ∀ service, all.entries.lookup name = some service → initializes attributes inits service = true →
    (attributes service).name ∈ m'.services.map fun s => (attributes s).name
  closed : ∀ service ∈ m'.services, service ∉ m.services → ∀ dep ∈ (attributes service).dependencies,
    dep ∈ all.entries.map Prod.fst → dep ∈ done
  ordered : ∀ before service after, m'.services = before ++ service :: after → service ∉ m.services →
    ∀ dep ∈ (attributes service).dependencies, ∀ other, all.entries.lookup dep = some other → other ∈ m'.services → other ∈ before

theorem added_nil (h : m.WellFormed attributes) : Added attributes inits all m [] m where
  wellFormed := h
  handled := fun _ hname => absurd hname not_mem_nil
  closed := fun _ hserv hnew => absurd hserv hnew
  ordered := fun before _ _ heq hnew => absurd (heq ▸ mem_append_right before mem_cons_self) hnew

theorem Added.step {done : List String} {m' : Manager σ} (h : Added attributes inits all m done m')
    (hdeps : ∀ dep ∈ dependencies attributes all name, dep ∈ all.entries.map Prod.fst → dep ∈ done) :
    Added attributes inits all m (done ++ [name]) (addRegistered attributes inits all m' name) := by
  unfold addRegistered
  cases hlook : all.entries.lookup name with
  | none =>
    refine ⟨h.wellFormed, fun n hn service hserv => ?_, fun service hserv hnew dep hdep hkey => ?_, h.ordered⟩
    · rcases mem_append.mp hn with hold | hnew
      · exact h.handled n hold service hserv
      · rw [mem_singleton.mp hnew, hlook] at hserv
        cases hserv
    · exact mem_append_left _ (h.closed service hserv hnew dep hdep hkey)
  | some service =>
    dsimp only
    have hwell := wellFormed_addService h.wellFormed inits service
    by_cases hmem : (attributes service).name ∈ m'.services.map fun s => (attributes s).name
    · rw [addService_of_mem hmem]
      refine ⟨h.wellFormed, fun n hn s hs hinit => ?_, fun s hs hnew dep hdep hkey => ?_, h.ordered⟩
      · rcases mem_append.mp hn with hold | hnew
        · exact h.handled n hold s hs hinit
        · rw [mem_singleton.mp hnew, hlook] at hs
          cases hs
          exact hmem
      · exact mem_append_left _ (h.closed s hs hnew dep hdep hkey)
    · rw [addService_of_notMem hmem] at hwell ⊢
      split
      · next hinit =>
        rw [if_pos hinit] at hwell
        have hfresh : ∀ n ∈ done, all.entries.lookup n ≠ some service :=
          fun n hn hn' => hmem (h.handled n hn service hn' hinit)
        have hself : ∀ dep ∈ (attributes service).dependencies, dep ∈ all.entries.map Prod.fst → dep ∈ done := by
          intro dep hdep hkey
          refine hdeps dep ?_ hkey
          unfold dependencies
          rw [hlook]
          exact hdep
        refine ⟨hwell, fun n hn s hs hinit' => ?_, fun s hs hnew dep hdep hkey => ?_, ?_⟩
        · show (attributes s).name ∈ (m'.services ++ [service]).map fun s => (attributes s).name
          rw [map_append]
          rcases mem_append.mp hn with hold | hnew
          · exact mem_append_left _ (h.handled n hold s hs hinit')
          · rw [mem_singleton.mp hnew, hlook] at hs
            cases hs
            exact mem_append_right _ (mem_singleton_self _)
        · rcases mem_append.mp hs with hold | hlast
          · exact mem_append_left _ (h.closed s hold hnew dep hdep hkey)
          · obtain rfl := mem_singleton.mp hlast
            exact mem_append_left _ (hself dep hdep hkey)
        · intro before s after heq hnew dep hdep other hoth hpres
          have heq : m'.services ++ [service] = before ++ s :: after := heq
          rcases eq_nil_or_concat after with rfl | ⟨after, last, rfl⟩
          · obtain ⟨rfl, hlast⟩ := append_inj' heq rfl
            obtain rfl := head_eq_of_cons_eq hlast
            rcases mem_append.mp hpres with hold | hlast
            · exact hold
            · obtain rfl := mem_singleton.mp hlast
              exact absurd hoth (hfresh dep (hself dep hdep (mem_names hoth)))
          · have heq : m'.services ++ [service] = (before ++ s :: after) ++ [last] := by
              rw [heq, concat_eq_append, append_assoc]
              rfl
            obtain ⟨hservs, -⟩ := append_inj' heq rfl
            rcases mem_append.mp hpres with hold | hlast
            · exact h.ordered before s after hservs hnew dep hdep other hoth hold
            · obtain rfl := mem_singleton.mp hlast
              have hs : s ∈ m'.services := hservs ▸ mem_append_right before mem_cons_self
              exact absurd hoth (hfresh dep (h.closed s hs hnew dep hdep (mem_names hoth)))
      · next hinit =>
        refine ⟨h.wellFormed, fun n hn s hs hinit' => ?_, fun s hs hnew dep hdep hkey => ?_, h.ordered⟩
        · rcases mem_append.mp hn with hold | hnew
          · exact h.handled n hold s hs hinit'
          · rw [mem_singleton.mp hnew, hlook] at hs
            cases hs
            exact absurd hinit' hinit
        · exact mem_append_left _ (h.closed s hs hnew dep hdep hkey)

theorem added_foldl (h : m.WellFormed attributes) {names : List String}
    (hord : ∀ done name rest, names = done ++ name :: rest → ∀ dep ∈ dependencies attributes all name,
      dep ∈ all.entries.map Prod.fst → dep ∈ done) :
    Added attributes inits all m names (names.foldl (addRegistered attributes inits all) m) := by
  induction names using List.reverseRecOn with
  | nil => exact added_nil h
  | append_singleton names name ih =>
    rw [foldl_append]
    refine (ih fun done n rest heq => hord done n (rest ++ [name]) ?_).step (hord names name [] rfl)
    rw [heq, append_assoc]
    rfl

theorem added_all (h : m.WellFormed attributes) (inits : σ → Bool) (all : SortedMap String σ) :
    Added attributes inits all m (topologicalSort attributes all) (addAllRegisteredServices attributes inits all m) := by
  refine added_foldl h fun done name rest heq => ?_
  have hne : topologicalSort attributes all ≠ [] := heq ▸ append_ne_nil_of_right_ne_nil done (cons_ne_nil _ _)
  exact (Kahn.topologicalSort_sorted nodup_names hne).ordered done name rest heq

/-- **The order of initialisation.** The sort gives nothing exactly where there is nothing to sort or the dependencies among the
services have a cycle, and otherwise all the services, each after its dependencies. What is added in this order to the services of a
manager is deinitialised in the end, each before its dependencies. -/
theorem services_inOrder (attributes : σ → Attributes) (inits : σ → Bool) (all : SortedMap String σ) :
    (topologicalSort attributes all = [] ↔
        all.entries = [] ∨ Kahn.Cyclic (all.entries.map Prod.fst) (dependencies attributes all)) ∧
      (topologicalSort attributes all ≠ [] →
        Kahn.Sorted (all.entries.map Prod.fst) (dependencies attributes all) (topologicalSort attributes all)) ∧
      ∀ m : Manager σ, m.WellFormed attributes → ∃ deinits,
        removeAllRegisteredServices attributes ((addAllRegisteredServices attributes inits all m).services.length + 1)
            (addAllRegisteredServices attributes inits all m) = some (⟨[], []⟩, deinits) ∧
          ∀ service ∈ (addAllRegisteredServices attributes inits all m).services, service ∉ m.services →
            service ∈ deinits ∧ ∀ dep ∈ (attributes service).dependencies, ∀ other, all.entries.lookup dep = some other →
              ∀ before after, deinits = before ++ service :: after → other ∉ before := by
  refine ⟨?_, Kahn.topologicalSort_sorted nodup_names, fun m hm => ?_⟩
  · rw [topologicalSort, Kahn.topologicalSort_eq_nil_iff nodup_names, map_eq_nil_iff]
  · have hadded := added_all hm inits all
    refine ⟨_, removeAllRegisteredServices_eq hadded.wellFormed, fun service hserv hnew => ?_⟩
    refine ⟨mem_reverse.mpr hserv, fun dep hdep other hoth before after heq hbef => ?_⟩
    have hservs : (addAllRegisteredServices attributes inits all m).services =
        after.reverse ++ service :: before.reverse := by
      rw [← reverse_reverse (addAllRegisteredServices attributes inits all m).services, heq]
      simp
    have hnd : (after.reverse ++ service :: before.reverse).Nodup := by
      rw [← hservs]
      exact Nodup.of_map _ (hadded.wellFormed.order ▸ hadded.wellFormed.nodup)
    have hpres : other ∈ (addAllRegisteredServices attributes inits all m).services := by
      rw [hservs]
      exact mem_append_right _ (mem_cons_of_mem _ (mem_reverse.mpr hbef))
    have hafter := hadded.ordered after.reverse service before.reverse hservs hnew dep hdep other hoth hpres
    exact (nodup_append.mp hnd).2.2 other hafter other (mem_cons_of_mem _ (mem_reverse.mpr hbef)) rfl

end Brookesia.ServiceManager.InitOrder
