import MonitorMerlin.Pgroup.Tables

/-! # How many checks each node of a group runs -/

namespace MonitorMerlin

open List Tally

section Unhandled

variable (objects : ObjectConfig) (numPeers : Nat) (handled : Finset Nat)

def unhandledBelow (count : Nat) : Finset Nat := (Finset.range count).filter (· ∉ handled)

theorem unhandledBelow_succ (count : Nat) :
    unhandledBelow handled (count + 1) =
      if count ∈ handled then unhandledBelow handled count
      else insert count (unhandledBelow handled count) := by
  unfold unhandledBelow
  rw [Finset.range_add_one, Finset.filter_insert]
  split_ifs <;> rfl

structure CountedUnhandled (count : Nat) (before after : MappedGroup) : Prop where
  alloc : after.alloc = before.alloc
  hosts : ∀ row < numPeers + 1, ∀ index, after.hosts.assign row index =
    before.hosts.assign row index + share id (unhandledBelow handled count) row index
  services : ∀ row < numPeers + 1, ∀ index, after.services.assign row index =
    before.services.assign row index +
      share id (servicesOf objects (unhandledBelow handled count)) row index

variable {objects numPeers handled}

@[simp]
theorem mem_unhandledBelow {count host : Nat} :
    host ∈ unhandledBelow handled count ↔ host < count ∧ host ∉ handled := by
  simp [unhandledBelow]

variable {count : Nat}

theorem CountedUnhandled.step {before after : MappedGroup} (bound : count < objects.numHosts)
    (counted : CountedUnhandled objects numPeers handled count before after) :
    CountedUnhandled objects numPeers handled (count + 1) before
      (assignUnhandled objects numPeers handled after count) := by
  by_cases isHandled : count ∈ handled
  · have same : unhandledBelow handled (count + 1) = unhandledBelow handled count := by
      rw [unhandledBelow_succ, if_pos isHandled]
    rw [show assignUnhandled objects numPeers handled after count = after from if_pos isHandled]
    exact ⟨counted.alloc, same ▸ counted.hosts, same ▸ counted.services⟩
  · have more : unhandledBelow handled (count + 1) =
        insert count (unhandledBelow handled count) := by
      rw [unhandledBelow_succ, if_neg isHandled]
    have new : count ∉ unhandledBelow handled count := by
      simp
    have bounds : ∀ other ∈ unhandledBelow handled count, other < objects.numHosts := by
      intro other member
      exact (mem_unhandledBelow.mp member).1.trans bound
    rw [show assignUnhandled objects numPeers handled after count = _ from if_neg isHandled]
    constructor
    · exact counted.alloc
    · intro row within index
      dsimp only
      rw [bump_of_lt _ _ within, counted.hosts row within, more, share_insert _ new, Nat.add_assoc]
      rfl
    · intro row within index
      dsimp only
      rw [foldl_bump (objects.serviceOnce count bound) _ within, counted.services row within,
        more, servicesOf_insert, share_union _ (disjoint_servicesOf bounds bound new),
        Nat.add_assoc]

theorem CountedUnhandled.run (objects : ObjectConfig) (numPeers : Nat) (handled : Finset Nat)
    (before : MappedGroup) (bound : count ≤ objects.numHosts) :
    CountedUnhandled objects numPeers handled count before
      ((List.range count).foldl (assignUnhandled objects numPeers handled) before) := by
  induction count with
  | zero => exact ⟨rfl, fun _ _ _ => rfl, fun _ _ _ => rfl⟩
  | succ count ih =>
    rw [range_succ, foldl_append]
    exact (ih (by omega)).step (by omega)

end Unhandled

/-- The counters of a group are right, and so are their sums. -/
structure TablesRight (alloc : Nat) (tables : ObjectTables) : Prop where
  assign : ∀ n < alloc, ∀ p ≤ n, tables.assign n p = share (rank tables.map) tables.map n p
  inherit : ∀ n < alloc, ∀ p ≤ n, tables.inherit n p = share id tables.map n p
  assignTotal : ∀ n < alloc, ∑ p ∈ Finset.range (n + 1), tables.assign n p = tables.assigned
  inheritTotal : ∀ n < alloc, ∑ p ∈ Finset.range (n + 1), tables.inherit n p = tables.assigned

structure IpcRight (objects : ObjectConfig) (groups : List MappedGroup) (ipc : MappedGroup) :
    Prop where
  hosts : ∀ n < ipc.alloc, ∀ p ≤ n, ipc.hosts.assign n p =
    ((Finset.range objects.numHosts).filter fun host =>
      (∀ pg ∈ groups, host ∉ pg.hosts.map) ∧ host % (n + 1) = p).card
  services : ∀ n < ipc.alloc, ∀ p ≤ n, ipc.services.assign n p =
    ((Finset.range objects.numServices).filter fun service =>
      (∀ pg ∈ groups, service ∉ pg.services.map) ∧ service % (n + 1) = p).card

section Counts

variable {objects : ObjectConfig} {numPeers : Nat} {memberLists : List (List Nat)}

theorem sum_hostPasses (count : Finset Nat → Nat) (none : count ∅ = 0)
    (empty : ∀ members ∈ memberLists.dropLast, members = []) :
    ((hostPasses ∅ memberLists).map count).sum = count memberLists.flatten.toFinset := by
  induction memberLists with
  | nil => exact none.symm
  | cons members memberLists ih =>
    cases memberLists with
    | nil => simp [hostPasses]
    | cons next rest =>
      have first : members = [] := empty members (by simp)
      have later := ih fun other member => empty other (by simp [member])
      subst first
      simpa [hostPasses, none] using later

theorem card_le_sum_hostPasses (map : Finset Nat) (some : memberLists ≠ []) :
    (map ∪ memberLists.flatten.toFinset).card ≤
      ((hostPasses map memberLists).map Finset.card).sum := by
  induction memberLists generalizing map with
  | nil => exact absurd rfl some
  | cons members memberLists ih =>
    rw [hostPasses, map_cons, sum_cons, flatten_cons, toFinset_append, ← Finset.union_assoc]
    by_cases last : memberLists = []
    · subst last
      simp
    · exact le_trans (ih _ last) (Nat.le_add_left _ _)

theorem empty_of_sum_hostPasses
    (same : ((hostPasses ∅ memberLists).map Finset.card).sum = memberLists.flatten.toFinset.card) :
    ∀ members ∈ memberLists.dropLast, members = [] := by
  induction memberLists with
  | nil => simp
  | cons members memberLists ih =>
    cases memberLists with
    | nil => simp
    | cons next rest =>
      have least := card_le_sum_hostPasses (∅ ∪ members.toFinset) (cons_ne_nil next rest)
      rw [hostPasses, map_cons, sum_cons, flatten_cons, toFinset_append] at same
      rw [Finset.empty_union] at same least
      have first : members = [] := by
        rw [← toFinset_eq_empty_iff, ← Finset.card_eq_zero]
        omega
      subst first
      intro other member
      rw [dropLast_cons_of_ne_nil (cons_ne_nil next rest)] at member
      rcases mem_cons.mp member with same | later
      · exact same
      · exact ih (by simpa using same) other later

theorem Counted.tablesRight {alloc : Nat} {passes : List (Finset Nat)} {tables : ObjectTables}
    (counted : Counted alloc passes .empty tables) (assigned : tables.assigned = tables.map.card)
    (once : ∀ count : Finset Nat → Nat, count ∅ = 0 → (passes.map count).sum = count tables.map) :
    TablesRight alloc tables := by
  have assign (n : Nat) (within : n < alloc) (p : Nat) :
      tables.assign n p = share (rank tables.map) tables.map n p := by
    rw [counted.assign n within, once (fun map => share (rank map) map n p) (share_empty _ n p)]
    exact Nat.zero_add _
  have inherit (n : Nat) (within : n < alloc) (p : Nat) :
      tables.inherit n p = share id tables.map n p := by
    rw [counted.inherit n within, once (fun map => share id map n p) (share_empty _ n p)]
    exact Nat.zero_add _
  constructor
  · exact fun n within p _ => assign n within p
  · exact fun n within p _ => inherit n within p
  · intro n within
    rw [assigned, ← sum_share (rank tables.map) tables.map n]
    exact Finset.sum_congr rfl fun p _ => assign n within p
  · intro n within
    rw [assigned, ← sum_share id tables.map n]
    exact Finset.sum_congr rfl fun p _ => inherit n within p

section Group

variable {spec : GroupSpec} {pg : MappedGroup}

theorem MapsTo.tablesRight (mapsTo : MapsTo objects numPeers spec memberLists pg)
    (empty : ∀ members ∈ memberLists.dropLast, members = []) :
    TablesRight pg.alloc pg.hosts ∧ TablesRight pg.alloc pg.services := by
  constructor
  · apply mapsTo.hosts.tablesRight mapsTo.hostsAssigned
    intro count none
    rw [sum_hostPasses count none empty, mapsTo.hostsMap]
  · apply mapsTo.services.tablesRight mapsTo.servicesAssigned
    intro count none
    rw [map_map, sum_hostPasses (count ∘ servicesOf objects) none empty, mapsTo.servicesMap,
      mapsTo.hostsMap]
    rfl

theorem MapsTo.empty_of_tablesRight (mapsTo : MapsTo objects numPeers spec memberLists pg)
    (right : TablesRight pg.alloc pg.hosts) : ∀ members ∈ memberLists.dropLast, members = [] := by
  have within : 0 < pg.alloc := by
    rw [mapsTo.alloc]
    exact lt_of_lt_of_le (Nat.succ_pos numPeers) (le_max_left _ _)
  apply empty_of_sum_hostPasses
  have counted := mapsTo.hosts.assign 0 within 0
  rw [right.assign 0 within 0 (le_refl 0), share_zero, mapsTo.hostsMap] at counted
  rw [counted]
  simp only [share_zero]
  exact (Nat.zero_add _).symm

theorem MembersOf.dropLast_iff
    {names : List String} (members : MembersOf objects names memberLists) :
    (∀ name ∈ names.dropLast, objects.hostgroup name = some []) ↔
      ∀ members ∈ memberLists.dropLast, members = [] := by
  induction members with
  | nil => simp
  | cons found others ih =>
    cases others with
    | nil => simp
    | cons nextFound rest =>
      simp only [dropLast_cons_cons, forall_mem_cons, ih]
      rw [found, Option.some_inj]

end Group

theorem mem_unhandled_services {groups : List MappedGroup} {handled : Finset Nat}
    (handledIff : ∀ host, host ∈ handled ↔ ∃ pg ∈ groups, host ∈ pg.hosts.map)
    (services : ∀ pg ∈ groups, pg.services.map = servicesOf objects pg.hosts.map)
    (bound : ∀ pg ∈ groups, ∀ host ∈ pg.hosts.map, host < objects.numHosts) (service : Nat) :
    service ∈ servicesOf objects (unhandledBelow handled objects.numHosts) ↔
      service < objects.numServices ∧ ∀ pg ∈ groups, service ∉ pg.services.map := by
  constructor
  · intro unhandledService
    obtain ⟨host, unhandled, inHost⟩ := mem_servicesOf.mp unhandledService
    obtain ⟨hostBound, notHandled⟩ := mem_unhandledBelow.mp unhandled
    refine ⟨objects.serviceBound host hostBound service inHost, ?_⟩
    intro pg member inMap
    rw [services pg member, mem_servicesOf_iff (bound pg member) hostBound inHost] at inMap
    exact notHandled ((handledIff host).mpr ⟨pg, member, inMap⟩)
  · rintro ⟨serviceBound, outside⟩
    obtain ⟨host, hostBound, inHost⟩ := objects.serviceHost service serviceBound
    refine mem_servicesOf.mpr ⟨host, mem_unhandledBelow.mpr ⟨hostBound, ?_⟩, inHost⟩
    intro isHandled
    obtain ⟨pg, member, inMap⟩ := (handledIff host).mp isHandled
    apply outside pg member
    rw [services pg member]
    exact mem_servicesOf.mpr ⟨host, inMap, inHost⟩

end Counts

section MapObjects

variable {objects : ObjectConfig} {numPeers : Nat} {specs : List GroupSpec} {mapped : Mapped}

section

variable (result : pgroupMapObjects objects numPeers specs = some mapped)

include result

theorem pgroupMapObjects_ipc :
    CountedUnhandled objects numPeers mapped.mapping.handledHosts objects.numHosts
      (pgroupAllocCounters numPeers (numPeers + 1)) mapped.ipc := by
  obtain ⟨groups, _, rfl⟩ := Option.map_eq_some_iff.mp result
  exact CountedUnhandled.run objects numPeers _ _ (le_refl _)

theorem pgroupMapObjects_ipc_alloc : mapped.ipc.alloc = numPeers + 1 := by
  rw [(pgroupMapObjects_ipc result).alloc]
  exact max_self _

theorem pgroupMapObjects_ipcRight : IpcRight objects mapped.groups mapped.ipc := by
  have groupsMapped := pgroupMapObjects_groupsMapped result
  have mapsTo := pgroupMapObjects_mapsTo result
  have handledIff : ∀ host, host ∈ mapped.mapping.handledHosts ↔
      ∃ pg ∈ mapped.groups, host ∈ pg.hosts.map := by
    intro host
    rw [groupsMapped.handled]
    simp
  have counted := pgroupMapObjects_ipc result
  have alloc := pgroupMapObjects_ipc_alloc result
  constructor
  · intro n within p _
    rw [counted.hosts n (alloc ▸ within)]
    refine (Nat.zero_add _).trans ?_
    unfold share unhandledBelow
    rw [Finset.filter_filter]
    congr 1
    ext host
    simp [handledIff]
  · intro n within p _
    rw [counted.services n (alloc ▸ within)]
    refine (Nat.zero_add _).trans ?_
    have services : ∀ pg ∈ mapped.groups, pg.services.map = servicesOf objects pg.hosts.map := by
      intro pg member
      obtain ⟨_, _, _, group⟩ := mapsTo pg member
      exact group.servicesMap
    have bound : ∀ pg ∈ mapped.groups, ∀ host ∈ pg.hosts.map, host < objects.numHosts := by
      intro pg member
      obtain ⟨_, _, _, group⟩ := mapsTo pg member
      exact group.hostBound
    unfold share
    congr 1
    ext service
    rw [Finset.mem_filter, mem_unhandled_services handledIff services bound]
    simp [and_assoc]

end

/-- The counters are right exactly when no hostgroup of a poller group has hosts, except for
the last one of the group. -/
theorem pgroupMapObjects_counts_iff
    (objects : ObjectConfig) (numPeers : Nat) (specs : List GroupSpec) (mapped : Mapped)
    (result : pgroupMapObjects objects numPeers specs = some mapped) :
    ((∀ pg ∈ mapped.groups, TablesRight pg.alloc pg.hosts ∧ TablesRight pg.alloc pg.services) ∧
        IpcRight objects mapped.groups mapped.ipc) ↔
      ∀ spec ∈ specs, ∀ name ∈ spec.hostgroups.dropLast, objects.hostgroup name = some [] := by
  rw [and_iff_left (pgroupMapObjects_ipcRight result)]
  have all := (pgroupMapObjects_groupsMapped result).mapsTo
  generalize mapped.groups = groups at all
  clear result
  induction all with
  | nil => simp
  | cons first _ ih =>
    obtain ⟨memberLists, mapsTo⟩ := first
    rw [forall_mem_cons, forall_mem_cons, mapsTo.members.dropLast_iff]
    apply and_congr _ ih
    exact ⟨fun right => mapsTo.empty_of_tablesRight right.1, mapsTo.tablesRight⟩

end MapObjects

theorem pgroupMapObjects_counts_threeHosts :
    ∃ mapped, pgroupMapObjects threeHosts 1 [⟨["none", "b"], 2⟩, ⟨["c"], 1⟩] = some mapped ∧
      (∀ pg ∈ mapped.groups, TablesRight pg.alloc pg.hosts ∧ TablesRight pg.alloc pg.services) ∧
      IpcRight threeHosts mapped.groups mapped.ipc := by
  have found : (pgroupMapObjects threeHosts 1 [⟨["none", "b"], 2⟩, ⟨["c"], 1⟩]).isSome := by
    decide
  obtain ⟨mapped, result⟩ := Option.isSome_iff_exists.mp found
  exact ⟨mapped, result, (pgroupMapObjects_counts_iff threeHosts 1 _ mapped result).mpr (by decide)⟩

theorem pgroupMapObjects_counts_twice :
    ∃ mapped pg, pgroupMapObjects threeHosts 1 [⟨["a", "b"], 2⟩] = some mapped ∧
      mapped.groups = [pg] ∧ pg.hosts.map = {0, 1} ∧ pg.hosts.assigned = 2 ∧
      pg.hosts.assign 0 0 = 3 ∧ ¬ TablesRight pg.alloc pg.hosts := by
  refine ⟨_, _, rfl, rfl, by decide, by decide, by decide, ?_⟩
  intro right
  exact absurd (right.assignTotal 0 (by decide)) (by decide)

end MonitorMerlin
