import Mathlib.Data.List.DropRight
import Mathlib.Data.List.Nodup
import MonitorMerlin.Node.Compat

/-! # The nodes that `mon oconf push` pushes to -/

namespace MonitorMerlin

open List

universe u

section Loop

variable {α : Type u} (p : α → Bool)

def removeLoop : Bool → List α → List α
  | _, [] => []
  | skip, item :: rest =>
    if !skip && p item then removeLoop true rest else item :: removeLoop false rest

def keptLoop : Bool → List α → List α
  | _, [] => []
  | skip, item :: rest =>
    if skip then keptLoop false rest
    else if p item then keptLoop true rest
    else item :: keptLoop false rest

private theorem removeLoop_sublist (skip : Bool) (items : List α) :
    (removeLoop p skip items).Sublist items := by
  induction items generalizing skip with
  | nil => exact Sublist.refl _
  | cons item rest ih =>
    rw [removeLoop]
    split_ifs
    · exact (ih true).cons item
    · exact (ih false).cons_cons item

private theorem keptLoop_sublist (skip : Bool) (items : List α) :
    (keptLoop p skip items).Sublist items := by
  induction items generalizing skip with
  | nil => exact Sublist.refl _
  | cons item rest ih =>
    rw [keptLoop]
    split_ifs
    · exact (ih false).cons item
    · exact (ih true).cons item
    · exact (ih false).cons_cons item

def endsOdd (items : List α) : Bool := (items.rtakeWhile p).length % 2 = 1

def leftIn (items : List α) : List α :=
  (items.zipIdx.filter fun place => endsOdd p (items.take place.2) || !p place.1).map Prod.fst

def reachedIn (items : List α) : List α :=
  (items.zipIdx.filter fun place => !endsOdd p (items.take place.2)).map Prod.fst

section Concat

variable (front : List α) (item : α)

private theorem endsOdd_concat : endsOdd p (front ++ [item]) = (!endsOdd p front && p item) := by
  unfold endsOdd
  cases isRemoved : p item with
  | false => simp [rtakeWhile_concat_neg, isRemoved]
  | true =>
    rw [rtakeWhile_concat_pos _ _ _ isRemoved, length_append, length_singleton, Bool.and_true,
      ← decide_not, decide_eq_decide]
    omega

private theorem filter_zipIdx_concat (q : List α → α → Bool) :
    ((front ++ [item]).zipIdx.filter fun place => q ((front ++ [item]).take place.2) place.1).map
        Prod.fst =
      (front.zipIdx.filter fun place => q (front.take place.2) place.1).map Prod.fst ++
        [item].filter (q front) := by
  have same : ∀ place ∈ front.zipIdx, q ((front ++ [item]).take place.2) place.1 =
      q (front.take place.2) place.1 := by
    intro place member
    rw [take_append_of_le_length (Nat.le_of_lt (by simpa using snd_lt_of_mem_zipIdx member))]
  rw [zipIdx_append, filter_append, filter_congr same, map_append]
  simp only [zipIdx_singleton, Nat.zero_add, filter_cons, take_left, filter_nil]
  split <;> rfl

private theorem removeLoop_concat (skip : Bool) :
    removeLoop p skip (front ++ [item]) = removeLoop p skip front ++
      if !(front.foldl (fun skip item => !skip && p item) skip) && p item then [] else [item] := by
  induction front generalizing skip with
  | nil => simp [removeLoop]
  | cons first front ih =>
    rw [cons_append, removeLoop, removeLoop, foldl_cons]
    cases !skip && p first with
    | true => exact ih true
    | false => exact congrArg (first :: ·) (ih false)

private theorem keptLoop_concat (skip : Bool) :
    keptLoop p skip (front ++ [item]) = keptLoop p skip front ++
      if !(front.foldl (fun skip item => !skip && p item) skip) && !p item then [item] else [] := by
  induction front generalizing skip with
  | nil =>
    simp only [nil_append, keptLoop, foldl_nil]
    cases skip <;> cases p item <;> rfl
  | cons first front ih =>
    rw [cons_append, keptLoop, keptLoop, foldl_cons]
    split_ifs <;> simp_all

end Concat

private theorem foldl_skip (items : List α) :
    items.foldl (fun skip item => !skip && p item) false = endsOdd p items := by
  induction items using reverseRecOn with
  | nil => rfl
  | append_singleton front item ih => rw [foldl_append, ih, endsOdd_concat, foldl_cons, foldl_nil]

private theorem removeLoop_eq (items : List α) : removeLoop p false items = leftIn p items := by
  induction items using reverseRecOn with
  | nil => rfl
  | append_singleton front item ih =>
    rw [removeLoop_concat, foldl_skip, ih, leftIn, leftIn,
      filter_zipIdx_concat front item fun before item => endsOdd p before || !p item]
    cases endsOdd p front <;> cases isRemoved : p item <;> simp [isRemoved]

private theorem keptLoop_eq (items : List α) :
    keptLoop p false items = (reachedIn p items).filter fun item => !p item := by
  induction items using reverseRecOn with
  | nil => rfl
  | append_singleton front item ih =>
    rw [keptLoop_concat, foldl_skip, ih, reachedIn, reachedIn,
      filter_zipIdx_concat front item fun before _ => !endsOdd p before, filter_append]
    cases endsOdd p front <;> cases isRemoved : p item <;> simp [isRemoved]

end Loop

structure PushNode where
  name : List Char
  ntype : NodeType
  connect : Option (List Char)
  oconfSource : Option (List Char)
  oconfSshKey : Option (List Char)
  pathsToSync : List (List Char)
  deriving DecidableEq, Repr

structure PushEnv where
  isRoot : Bool
  oconf : Bool
  extras : Bool
  bsm : Bool
  configDir : List Char
  naemonCfgDir : List Char
  pathExists : List Char → Bool
  isDir : List Char → Bool

inductive PushFault where
  | root
  | attributeError
  | missingFile
  deriving DecidableEq, Repr

def PushNode.connectNo (node : PushNode) : Bool :=
  node.connect.any fun connect => connect.map Char.toLower == ['n', 'o']

namespace PushEnv

variable (env : PushEnv)

def oconfFile (name : List Char) : List Char := env.configDir ++ '/' :: name ++ ".cfg".toList

def lacksFile (node : PushNode) : Bool :=
  env.oconf && node.ntype == .poller && !env.pathExists (env.oconfFile node.name)

def bps : List Char := "/opt/synergy/etc/bps".toList

def sources (node : PushNode) : List (List Char) :=
  (if env.oconf then
      [if node.ntype = .poller then env.oconfFile node.name
      else node.oconfSource.getD env.naemonCfgDir]
    else []) ++
    (if env.extras then node.pathsToSync else []) ++
    if env.bsm && env.isDir bps then [bps] else []

/-- `wanted_nodes` in front of the second loop. -/
def wantedNodes (nodes : List PushNode) : List PushNode :=
  removeLoop PushNode.connectNo false nodes

/-- `sync_list`, without node arguments. -/
def syncList (nodes : List PushNode) : List PushNode :=
  keptLoop env.lacksFile false (wantedNodes nodes)

/-- The nodes that `cmd_push` synchronises. -/
def syncedNodes (nodes : List PushNode) : Except PushFault (List PushNode) :=
  if env.isRoot && env.oconf then
    .error .root
  else if (env.syncList nodes).any fun node => node.oconfSshKey.isSome then
    .error .attributeError
  else if (env.syncList nodes).any fun node => (env.sources node).any fun source =>
      !env.pathExists source then
    .error .missingFile
  else
    .ok ((env.syncList nodes).filter fun node => node.ntype != .master)

structure PushesRight (nodes : List PushNode) : Prop where
  synced : ∃ synced, env.syncedNodes nodes = .ok synced ∧ ∀ node, node ∈ synced ↔
    node ∈ nodes ∧ node.ntype ≠ .master ∧ node.connectNo = false ∧ env.lacksFile node = false
  once : ∀ node ∈ nodes, node.connectNo = false → env.lacksFile node = false →
    (env.syncList nodes).count node = 1

def reached (nodes : List PushNode) : List PushNode :=
  reachedIn env.lacksFile (leftIn PushNode.connectNo nodes)

structure MayPush (nodes : List PushNode) : Prop where
  user : (env.isRoot && env.oconf) = false
  wanted : ∀ node ∈ nodes, node.connectNo = false → env.lacksFile node = false →
    node ∈ env.reached nodes
  unwanted : ∀ node ∈ env.reached nodes, node.connectNo = true →
    env.lacksFile node = true ∨ node.ntype = .master
  keys : ∀ node ∈ env.reached nodes, env.lacksFile node = false → node.oconfSshKey = none
  files : ∀ node ∈ env.reached nodes, env.lacksFile node = false →
    ∀ source ∈ env.sources node, env.pathExists source = true

variable {env} {nodes : List PushNode} {node : PushNode}

private theorem syncList_sublist : (env.syncList nodes).Sublist nodes :=
  (keptLoop_sublist _ _ _).trans (removeLoop_sublist _ _ _)

private theorem mem_syncList_iff :
    node ∈ env.syncList nodes ↔ node ∈ env.reached nodes ∧ env.lacksFile node = false := by
  rw [syncList, wantedNodes, removeLoop_eq, keptLoop_eq, mem_filter, Bool.not_eq_true', reached]

private theorem syncedNodes_eq_ok_iff {synced : List PushNode} :
    env.syncedNodes nodes = .ok synced ↔
      (env.isRoot && env.oconf) = false ∧
        (∀ node ∈ env.syncList nodes, node.oconfSshKey = none) ∧
        (∀ node ∈ env.syncList nodes, ∀ source ∈ env.sources node,
          env.pathExists source = true) ∧
        (env.syncList nodes).filter (fun node => node.ntype != .master) = synced := by
  have noKey : ((env.syncList nodes).any fun node => node.oconfSshKey.isSome) = false ↔
      ∀ node ∈ env.syncList nodes, node.oconfSshKey = none := by simp
  have noMissing : ((env.syncList nodes).any fun node => (env.sources node).any fun source =>
      !env.pathExists source) = false ↔
        ∀ node ∈ env.syncList nodes, ∀ source ∈ env.sources node,
          env.pathExists source = true := by simp
  rw [← noKey, ← noMissing, syncedNodes]
  cases env.isRoot && env.oconf with
  | true => simp
  | false =>
    cases (env.syncList nodes).any fun node => node.oconfSshKey.isSome with
    | true => simp
    | false =>
      cases (env.syncList nodes).any fun node => (env.sources node).any fun source =>
        !env.pathExists source with
      | true => simp
      | false => simp

variable (env)

/-- `mon oconf push` synchronises the nodes that it should if and only if both loops get
to them, do not get to a node with `connect = no` that would be synchronised, and what
they get to passes the checks. -/
theorem pushesRight_iff (distinct : (nodes.map PushNode.name).Nodup) :
    env.PushesRight nodes ↔ env.MayPush nodes := by
  constructor
  · rintro ⟨⟨synced, isSynced, right⟩, once⟩
    obtain ⟨user, noKey, noMissing, rfl⟩ := syncedNodes_eq_ok_iff.mp isSynced
    refine ⟨user, ?_, ?_, ?_, ?_⟩
    · intro node member connects hasFile
      have inList : node ∈ env.syncList nodes := by
        rw [← one_le_count_iff, once node member connects hasFile]
      exact (mem_syncList_iff.mp inList).1
    · intro node isReached noConnect
      by_contra! wrong
      have inList : node ∈ env.syncList nodes :=
        mem_syncList_iff.mpr ⟨isReached, Bool.eq_false_iff.mpr wrong.1⟩
      have connects := ((right node).mp (mem_filter.mpr ⟨inList, bne_iff_ne.mpr wrong.2⟩)).2.2.1
      rw [connects] at noConnect
      cases noConnect
    · intro node isReached hasFile
      exact noKey node (mem_syncList_iff.mpr ⟨isReached, hasFile⟩)
    · intro node isReached hasFile
      exact noMissing node (mem_syncList_iff.mpr ⟨isReached, hasFile⟩)
  · rintro ⟨user, wanted, unwanted, keys, files⟩
    refine ⟨⟨_, syncedNodes_eq_ok_iff.mpr ⟨user, ?_, ?_, rfl⟩, ?_⟩, ?_⟩
    · intro node inList
      exact keys node (mem_syncList_iff.mp inList).1 (mem_syncList_iff.mp inList).2
    · intro node inList
      exact files node (mem_syncList_iff.mp inList).1 (mem_syncList_iff.mp inList).2
    · intro node
      rw [mem_filter, bne_iff_ne]
      constructor
      · rintro ⟨inList, notMaster⟩
        obtain ⟨isReached, hasFile⟩ := mem_syncList_iff.mp inList
        refine ⟨syncList_sublist.subset inList, notMaster, ?_, hasFile⟩
        by_contra noConnect
        rcases unwanted node isReached (by simpa using noConnect) with lacks | master
        · rw [hasFile] at lacks
          cases lacks
        · exact notMaster master
      · rintro ⟨member, notMaster, connects, hasFile⟩
        exact ⟨mem_syncList_iff.mpr ⟨wanted node member connects hasFile, hasFile⟩, notMaster⟩
    · intro node member connects hasFile
      exact count_eq_one_of_mem (syncList_sublist.nodup (Nodup.of_map _ distinct))
        (mem_syncList_iff.mpr ⟨wanted node member connects hasFile, hasFile⟩)

end PushEnv

def samplePushEnv : PushEnv where
  isRoot := false
  oconf := true
  extras := false
  bsm := false
  configDir := "/cache".toList
  naemonCfgDir := "/etc".toList
  pathExists path := path ≠ "/cache/c.cfg".toList
  isDir _ := false

def pushNode (name : Char) (ntype : NodeType) (connect : Option (List Char)) : PushNode :=
  ⟨[name], ntype, connect, none, none, []⟩

theorem pushesRight_sample :
    samplePushEnv.PushesRight [pushNode 'a' .peer none, pushNode 'b' .poller (some ['N', 'o']),
      pushNode 'd' .poller none, pushNode 'm' .master none, pushNode 'c' .poller none] :=
  (samplePushEnv.pushesRight_iff (by decide)).mpr
    ⟨by decide, by decide, by decide, by decide, by decide⟩

theorem not_pushesRight_two :
    ¬ samplePushEnv.PushesRight [pushNode 'a' .poller (some ['n', 'o']),
      pushNode 'b' .poller (some ['n', 'o'])] := by
  rintro ⟨⟨synced, isSynced, right⟩, -⟩
  have inSynced : pushNode 'b' .poller (some ['n', 'o']) ∈ synced := by
    rw [← Except.ok.inj isSynced]
    decide
  exact absurd ((right _).mp inSynced).2.2.1 (by decide)

end MonitorMerlin
