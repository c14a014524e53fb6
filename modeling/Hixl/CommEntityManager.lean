import Hixl.CacheAccessTable
import Hixl.HeldResources

/-!
# The entities of the links

`CommEntityManager` keeps an entity for every link and the number of the entity
of every remote cluster.  With the FSM thread running, `DestroyEntity` only marks
the entity; the thread, or `DeleteEntities`, takes it out later and then forgets
the number of its cluster, whichever entity that number is of.

Every step is a critical section of the manager's mutex, except that other
threads mark entities without it.  The FSM thread takes one step an entity.
-/

namespace Hixl.Llm

open HeldResources

inductive FsmState where
  | init
  | idle
  | receive
  | send
  | error
  | destroyed
  deriving DecidableEq, Repr

structure CommEntity where
  clusterId : UInt64
  curState : FsmState := .init
  deriving DecidableEq, Repr

/-- What `ProcessState` ends in, unless it fails: the request of the peer is
awaited, or is being served. -/
def processState : Option Bool → FsmState
  | none => .error
  | some false => .receive
  | some true => .send

/-- The counter of entity ids has 64 bits and does not wrap. -/
structure CommEntityManager where
  startService : Bool := true
  entityIdGen : ℕ := 1
  entityMap : Map ℕ CommEntity := ∅
  clusterIdToEntityId : Map UInt64 ℕ := ∅

namespace CommEntityManager

def addEntity (cluster : UInt64) (entity : CommEntity) (m : CommEntityManager) :
    CommEntityManager :=
  { m with
    entityIdGen := m.entityIdGen + 1
    entityMap := m.entityMap.insert m.entityIdGen entity
    clusterIdToEntityId := m.clusterIdToEntityId.insert cluster m.entityIdGen }

def mark (id : ℕ) (state : FsmState) (m : CommEntityManager) : CommEntityManager :=
  match m.entityMap.lookup id with
  | none => m
  | some entity => { m with entityMap := m.entityMap.insert id { entity with curState := state } }

def erase (id : ℕ) (cluster : UInt64) (m : CommEntityManager) : CommEntityManager :=
  { m with
    entityMap := m.entityMap.erase id
    clusterIdToEntityId := m.clusterIdToEntityId.erase cluster }

/-- `finalized` is the result of `Finalize` of the entity. -/
def destroyEntity (finalized : Option GeError) (cluster : UInt64) (m : CommEntityManager) :
    Option GeError × CommEntityManager :=
  match m.clusterIdToEntityId.lookup cluster with
  | none => (none, m)
  | some id =>
    match m.entityMap.lookup id with
    | none => (none, { m with clusterIdToEntityId := m.clusterIdToEntityId.erase cluster })
    | some _ => (finalized, if m.startService then m.mark id .destroyed else m.erase id cluster)

def getEntityByRemoteClusterId (cluster : UInt64) (m : CommEntityManager) : Option CommEntity :=
  (m.clusterIdToEntityId.lookup cluster).bind fun id =>
    (m.entityMap.lookup id).filter fun entity =>
      entity.curState ≠ .destroyed ∧ entity.curState ≠ .init

def deleteEntity (m : CommEntityManager) (id : ℕ) : CommEntityManager :=
  match m.entityMap.lookup id with
  | none => m
  | some entity => if entity.curState = .destroyed then m.erase id entity.clusterId else m

def deleteEntities (m : CommEntityManager) : CommEntityManager :=
  m.entityMap.keys.foldl deleteEntity m

/-- One entity in a pass of `HandleAllEntities`; `free` says whether its mutex
can be taken. -/
def handleEntity (id : ℕ) (free : Bool) (processed : Option Bool) (m : CommEntityManager) :
    CommEntityManager :=
  match m.entityMap.lookup id with
  | none => m
  | some entity =>
    if entity.curState = .init ∨ entity.curState = .error ∨ ¬ free then m
    else if entity.curState = .destroyed then m.erase id entity.clusterId
    else m.mark id (processState processed)

inductive Step where
  | addEntity (cluster : UInt64) (entity : CommEntity)
  | destroyEntity (finalized : Option GeError) (cluster : UInt64)
  | deleteEntities
  | handleEntity (id : ℕ) (free : Bool) (processed : Option Bool)
  | markEntityIdle (id : ℕ)
  | markEntityDestroyed (id : ℕ)

def step (m : CommEntityManager) : Step → CommEntityManager
  | .addEntity cluster entity => m.addEntity cluster entity
  | .destroyEntity finalized cluster => (m.destroyEntity finalized cluster).2
  | .deleteEntities => m.deleteEntities
  | .handleEntity id free processed => m.handleEntity id free processed
  | .markEntityIdle id => m.mark id .idle
  | .markEntityDestroyed id => m.mark id .destroyed

/-- The states after steps that are allowed when they are taken. -/
inductive Reachable (allowed : CommEntityManager → Step → Prop) : CommEntityManager → Prop
  | start (startService : Bool) : Reachable allowed { startService }
  | step {m : CommEntityManager} (c : Step) (hm : Reachable allowed m) (hallowed : allowed m c) :
      Reachable allowed (m.step c)

/-- A cluster is linked when it has no entity that is not destroyed. -/
def Unlinked (m : CommEntityManager) : Step → Prop
  | .addEntity cluster entity => entity.clusterId = cluster ∧ ∀ other ∈ m.entityMap.entries,
      other.2.clusterId = cluster → other.2.curState = .destroyed
  | _ => True

/-- A cluster is linked when its last entity has been taken out of the map. -/
def TakenOut (m : CommEntityManager) : Step → Prop
  | .addEntity cluster entity => entity.clusterId = cluster ∧ ∀ other ∈ m.entityMap.entries,
      other.2.clusterId ≠ cluster
  | _ => True

/-- Every entity in the map is the one of its cluster. -/
structure Indexed (m : CommEntityManager) : Prop where
  index : ∀ id entity, m.entityMap.lookup id = some entity →
    m.clusterIdToEntityId.lookup entity.clusterId = some id
  fresh : ∀ id entity, m.entityMap.lookup id = some entity → id < m.entityIdGen

namespace Indexed

variable {m : CommEntityManager}

section

variable (hm : Indexed m)

include hm

theorem mark (id : ℕ) (state : FsmState) : Indexed (m.mark id state) := by
  unfold CommEntityManager.mark
  split
  · exact hm
  · next entity hentity =>
    exact ⟨forall_lookup_insert hm.index (hm.index id entity hentity),
      forall_lookup_insert hm.fresh (hm.fresh id entity hentity)⟩

theorem erase {id : ℕ} {cluster : UInt64}
    (hbound : m.clusterIdToEntityId.lookup cluster = some id) : Indexed (m.erase id cluster) := by
  refine ⟨fun id' other hother => ?_, forall_lookup_erase hm.fresh⟩
  obtain ⟨hne, hold⟩ := lookup_of_erase hother
  have hindex := hm.index id' other hold
  refine (AList.lookup_erase_ne fun heq => hne ?_).trans hindex
  exact Option.some.inj (hindex.symm.trans (heq ▸ hbound))

theorem deleteEntity (id : ℕ) : Indexed (m.deleteEntity id) := by
  unfold CommEntityManager.deleteEntity
  split
  · exact hm
  · next entity hentity =>
    split_ifs
    · exact hm.erase (hm.index id entity hentity)
    · exact hm

theorem addEntity {cluster : UInt64} {entity : CommEntity}
    (hallowed : TakenOut m (.addEntity cluster entity)) : Indexed (m.addEntity cluster entity) := by
  obtain ⟨rfl, hothers⟩ := hallowed
  refine ⟨fun id other hother => ?_, fun id other hother => ?_⟩
  all_goals obtain ⟨rfl, rfl⟩ | ⟨-, hold⟩ := lookup_insert_cases hother
  · exact AList.lookup_insert _
  · exact (AList.lookup_insert_ne (hothers _ (AList.mem_lookup_iff.mp hold))).trans
      (hm.index id other hold)
  · exact Nat.lt_succ_self _
  · exact (hm.fresh id other hold).trans (Nat.lt_succ_self _)

theorem destroyEntity (finalized : Option GeError) (cluster : UInt64) :
    Indexed (m.destroyEntity finalized cluster).2 := by
  unfold CommEntityManager.destroyEntity
  split
  · exact hm
  · next id hbound =>
    split
    · next hnone =>
      refine ⟨fun id' other hother => ?_, hm.fresh⟩
      have hindex := hm.index id' other hother
      refine (AList.lookup_erase_ne fun heq => ?_).trans hindex
      have hsame := Option.some.inj (hindex.symm.trans (heq ▸ hbound))
      cases hnone.symm.trans (hsame ▸ hother)
    · dsimp only
      split_ifs
      · exact hm.mark id .destroyed
      · exact hm.erase hbound

theorem handleEntity (id : ℕ) (free : Bool) (processed : Option Bool) :
    Indexed (m.handleEntity id free processed) := by
  unfold CommEntityManager.handleEntity
  split
  · exact hm
  · next entity hentity =>
    split_ifs
    · exact hm
    · exact hm.erase (hm.index id entity hentity)
    · exact hm.mark id _

theorem step {c : Step} (hallowed : TakenOut m c) : Indexed (m.step c) := by
  cases c with
  | addEntity cluster entity => exact hm.addEntity hallowed
  | destroyEntity finalized cluster => exact hm.destroyEntity finalized cluster
  | deleteEntities => exact List.foldlRecOn m.entityMap.keys _ hm fun _ h id _ => h.deleteEntity id
  | handleEntity id free processed => exact hm.handleEntity id free processed
  | markEntityIdle id | markEntityDestroyed id => exact hm.mark id _

end

theorem of_reachable (hm : Reachable TakenOut m) : Indexed m := by
  induction hm with
  | start startService =>
    constructor
    all_goals
      intro _ _ h
      cases h
  | step c hm hallowed ih => exact ih.step hallowed

end Indexed

/-- When clusters are linked again only after their last entity was taken out,
every entity that is not destroyed is found under its cluster. -/
theorem live_entity_found {m : CommEntityManager} (hm : Reachable TakenOut m) (id : ℕ)
    (entity : CommEntity) (hentity : m.entityMap.lookup id = some entity)
    (hlive : entity.curState ≠ .destroyed) :
    m.clusterIdToEntityId.lookup entity.clusterId = some id ∧ (entity.curState ≠ .init →
        m.getEntityByRemoteClusterId entity.clusterId = some entity) := by
  have hindex := (Indexed.of_reachable hm).index id entity hentity
  refine ⟨hindex, fun hready => ?_⟩
  simp [getEntityByRemoteClusterId, hindex, hentity, hlive, hready]

def linked : CommEntityManager := ({} : CommEntityManager).step (.addEntity 7 ⟨7, .idle⟩)

/-- The link is destroyed, the FSM thread takes the entity out, and the cluster
is linked again. -/
theorem live_entity_found_linked : ∃ m, m = ((linked.step (.destroyEntity none 7)).step
        (.handleEntity 1 true none)).step (.addEntity 7 ⟨7, .idle⟩) ∧
      m.getEntityByRemoteClusterId 7 = some ⟨7, .idle⟩ := by
  have hlinked : Reachable TakenOut linked :=
    .step (.addEntity 7 ⟨7, .idle⟩) (.start true) ⟨rfl, by decide⟩
  have hgone := Reachable.step (.handleEntity 1 true none)
    (.step (.destroyEntity none 7) hlinked trivial) trivial
  exact ⟨_, rfl, (live_entity_found (.step (.addEntity 7 ⟨7, .idle⟩) hgone ⟨rfl, by decide⟩)
    2 ⟨7, .idle⟩ rfl (by decide)).2 (by decide)⟩

/-- The cluster is linked again before the FSM thread comes to the entity that
was destroyed: the thread forgets the number of the new one. -/
theorem relinked_entity_lost : ∃ m, Reachable Unlinked m ∧ m.entityMap.lookup 2 = some ⟨7, .idle⟩ ∧
      m.clusterIdToEntityId.lookup 7 = none ∧ m.getEntityByRemoteClusterId 7 = none := by
  have hlinked : Reachable Unlinked linked :=
    .step (.addEntity 7 ⟨7, .idle⟩) (.start true) ⟨rfl, by decide⟩
  have hagain : Reachable Unlinked ((linked.step (.destroyEntity none 7)).step
      (.addEntity 7 ⟨7, .idle⟩)) :=
    .step (.addEntity 7 ⟨7, .idle⟩) (.step (.destroyEntity none 7) hlinked trivial)
      ⟨rfl, by decide⟩
  exact ⟨_, .step (.handleEntity 1 true none) hagain trivial, by decide⟩

end CommEntityManager

end Hixl.Llm
