import Hixl.CacheAccessTable
import Hixl.HeldResources

/-!
# The cache manager

`CacheManager` keeps the caches of an engine and the keys under which they are
asked for.  An allocated cache lives until it has been deallocated and its keys
have been removed; a registered one belongs to the caller.  Every call ends with
a new version of the published table.  What the memory pools and the copy to the
device answer is a parameter.
-/

namespace Hixl.Llm

open HeldResources

structure CacheKey where
  reqId : UInt64
  prefixId : UInt64 := .ofNat (wordMax 64)
  modelId : UInt64
  deriving DecidableEq, Repr

/-- Whether the key is one of a prefix, and the key. -/
def createDataCacheKey (key : CacheKey) : Bool × DataCacheKey :=
  if key.prefixId ≠ .ofNat (wordMax 64) then (true, key.prefixId, key.modelId)
  else (false, key.reqId, key.modelId)

inductive CacheMemType where
  | cache
  | blocks
  | mix
  deriving DecidableEq, Repr

def CacheMemType.code : CacheMemType → UInt32
  | .cache => 0
  | .blocks => 1
  | .mix => 2

structure CacheDesc where
  numTensors : UInt32
  batchDimIndex : Int32 := 0
  shape : List Int64
  placement : UInt32 := 1
  cacheMemType : CacheMemType := .cache
  remoteAccessible : Bool := true

def getCacheBatchSize (desc : CacheDesc) : Except GeError UInt32 :=
  match desc.shape, desc.shape[desc.batchDimIndex.toInt.toNat]? with
  | [], _ => .ok 1
  | _ :: _, none => .error .paramInvalid
  | _ :: _, some size =>
    if 0 ≤ desc.batchDimIndex then .ok size.toUInt64.toUInt32 else .error .paramInvalid

def createCacheEntry (desc : CacheDesc) (addrs : List UInt64) (tensorSize : Int64) :
    Except GeError CacheEntry :=
  let entry (batchSize : UInt32) (numBlocks parts : UInt64) : CacheEntry :=
    { cacheAddrs := addrs, tensorSize := tensorSize.toUInt64, batchSize, numBlocks
      stride := tensorSize.toUInt64 / parts, cacheMemType := desc.cacheMemType.code
      placement := desc.placement, remoteAccessible := desc.remoteAccessible }
  match desc.cacheMemType, desc.shape with
  | .blocks, [] => .error .paramInvalid
  | .blocks, front :: _ => .ok (entry 1 front.toUInt64 front.toUInt64)
  | .cache, _ => (getCacheBatchSize desc).map fun batch => entry batch 0 batch.toUInt64
  | .mix, _ => (getCacheBatchSize desc).map fun batch => entry batch batch.toUInt64 batch.toUInt64

structure CacheManager where
  cacheIdToEntry : Map Int64 CacheEntry := ∅
  cacheIdToTensorIndices : Map Int64 (Finset ℕ) := ∅
  cacheKeyToId : Map DataCacheKey Int64 := ∅
  prefixKeyToId : Map DataCacheKey Int64 := ∅
  cacheIdAndBatchIdToCacheKey : Map (Int64 × UInt32) DataCacheKey := ∅
  enableRemoteCacheAccessible : Bool := false
  versionNum : UInt64 := 0

/-- What `AllocShared` and the computation of the tensor size answer. -/
structure PoolAnswers where
  enabled : Bool := true
  tensorSize : Except GeError Int64
  allocShared : ℕ → Option UInt64

/-- The pairs of a map that satisfy a condition. -/
def keep {κ ν : Type} (p : κ → ν → Bool) (map : Map κ ν) : Map κ ν where
  entries := map.entries.filter fun entry => p entry.1 entry.2
  nodupKeys := map.nodupKeys.sublist List.filter_sublist

namespace CacheManager

def keyToId (m : CacheManager) : Bool → Map DataCacheKey Int64
  | true => m.prefixKeyToId
  | false => m.cacheKeyToId

def setKeyToId (keys : Map DataCacheKey Int64) (m : CacheManager) : Bool → CacheManager
  | true => { m with prefixKeyToId := keys }
  | false => { m with cacheKeyToId := keys }

/-- `UpdateTableBuffer`, with the result of the copy to the device. -/
def updateCacheTable (copy : Option GeError) (m : CacheManager) : Option GeError × CacheManager :=
  if m.enableRemoteCacheAccessible then
    let next := { m with versionNum := m.versionNum + 1 }
    if next.versionNum = .ofNat (wordMax 64) then (some .failed, next)
    else match toBuffer next.cacheIdToEntry next.cacheKeyToId next.versionNum with
      | .error status => (some status, next)
      | .ok _ => (copy, next)
  else (none, m)

/-- `emplace` does not replace a binding; the keys of block caches do. -/
def addCacheIndex (id : Int64) (batchIndex : UInt32) (key : CacheKey)
    (made : CacheEntry × CacheManager) : CacheEntry × CacheManager :=
  let (entry, m) := made
  let (isPrefix, data) := createDataCacheKey key
  if 0 < entry.numBlocks then (entry, { m with cacheKeyToId := m.cacheKeyToId.insert data id })
  else if data.1 ≠ .ofNat (wordMax 64) then
    let keys := if data ∈ m.keyToId isPrefix then m.keyToId isPrefix
      else (m.keyToId isPrefix).insert data id
    ({ entry with
        idToBatchIndexAndSize :=
          entry.idToBatchIndexAndSize.insert data.1 (batchIndex, entry.stride) },
      { m.setKeyToId keys isPrefix with
        cacheIdAndBatchIdToCacheKey := m.cacheIdAndBatchIdToCacheKey.insert (id, batchIndex) data
        cacheIdToTensorIndices :=
          m.cacheIdToTensorIndices.insert id (Finset.range entry.cacheAddrs.length) })
  else made

def addCacheIndices (id : Int64) :
    UInt32 → List CacheKey → CacheEntry × CacheManager → CacheEntry × CacheManager
  | _, [], made => made
  | batchIndex, key :: rest, made =>
    addCacheIndices id (batchIndex + 1) rest (addCacheIndex id batchIndex key made)

def removeCacheIndices (id : Int64) (m : CacheManager) : CacheManager :=
  { m with
    cacheKeyToId := keep (fun _ bound => bound ≠ id) m.cacheKeyToId
    prefixKeyToId := keep (fun _ bound => bound ≠ id) m.prefixKeyToId
    cacheIdAndBatchIdToCacheKey := keep (fun index _ => index.1 ≠ id) m.cacheIdAndBatchIdToCacheKey
    cacheIdToTensorIndices := m.cacheIdToTensorIndices.erase id }

def eraseCache (id : Int64) (m : CacheManager) : CacheManager :=
  { m.removeCacheIndices id with cacheIdToEntry := m.cacheIdToEntry.erase id }

def checkKeys (m : CacheManager) : List DataCacheKey → List CacheKey → Option GeError
  | _, [] => none
  | seen, key :: rest =>
    let (isPrefix, data) := createDataCacheKey key
    if data ∈ m.keyToId isPrefix then some .paramInvalid
    else if data ∈ seen then some .paramInvalid
    else m.checkKeys (data :: seen) rest

def checkCacheKeys (desc : CacheDesc) (keys : List CacheKey) (m : CacheManager) : Option GeError :=
  match getCacheBatchSize desc with
  | .error status => some status
  | .ok batchSize =>
    if batchSize.toNat < keys.length then some .paramInvalid else m.checkKeys [] keys

def withEntry (id : Int64) (keys : List CacheKey) (entry : CacheEntry) (m : CacheManager) :
    CacheManager :=
  let (entry, m) := addCacheIndices id 0 keys (entry, m)
  { m with cacheIdToEntry := m.cacheIdToEntry.insert id entry }

def registerCacheEntry (copy : Option GeError) (id : Int64) (keys : List CacheKey)
    (desc : CacheDesc) (addrs : List UInt64) (tensorSize : Int64) (m : CacheManager) :
    Option GeError × CacheManager :=
  match createCacheEntry desc addrs tensorSize with
  | .error status => (some status, m)
  | .ok entry => (m.withEntry id keys entry).updateCacheTable copy

def unregisterCacheEntry (copy : Option GeError) (id : Int64) (m : CacheManager) :
    Option GeError × CacheManager :=
  if id ∈ m.cacheIdToEntry then (m.eraseCache id).updateCacheTable copy else (none, m)

def allocTensors (allocShared : ℕ → Option UInt64) : ℕ → Option (List UInt64)
  | 0 => some []
  | n + 1 => (allocTensors allocShared n).bind fun addrs => (allocShared n).map (addrs ++ [·])

def allocateEntry (answers : PoolAnswers) (desc : CacheDesc) : Except GeError CacheEntry :=
  if answers.enabled then
    answers.tensorSize.bind fun tensorSize =>
      match allocTensors answers.allocShared desc.numTensors.toNat with
      | none => .error .outOfMemory
      | some addrs => (createCacheEntry desc addrs tensorSize).map fun entry =>
          { entry with isOwned := true, extRefCount := 1 }
  else .error .featureNotEnabled

def allocate (answers : PoolAnswers) (copy : Option GeError) (id : Int64) (desc : CacheDesc)
    (keys : List CacheKey) (m : CacheManager) : Option GeError × CacheManager :=
  match allocateEntry answers desc with
  | .error status => (some status, m)
  | .ok entry =>
    match m.checkCacheKeys desc keys with
    | some status => (some status, m)
    | none =>
      if id ∈ m.cacheIdToEntry then (some .paramInvalid, m)
      else (m.withEntry id keys entry).updateCacheTable copy

def deallocate (copy : Option GeError) (id : Int64) (m : CacheManager) :
    Option GeError × CacheManager :=
  match m.cacheIdToEntry.lookup id with
  | none => (none, m)
  | some entry =>
    if ¬ entry.isOwned then (none, m)
    else if 0 < entry.numBlocks then (m.eraseCache id).updateCacheTable copy
    else if entry.idToBatchIndexAndSize.entries = [] then
      updateCacheTable copy { m with cacheIdToEntry := m.cacheIdToEntry.erase id }
    else (none, { m with
      cacheIdToEntry := m.cacheIdToEntry.insert id { entry with extRefCount := 0 } })

/-- `RemoveCacheKey` once all tensors of the cache have been removed. -/
def unbindKey (data : DataCacheKey) (isPrefix : Bool) (id : Int64) (entry : CacheEntry)
    (m : CacheManager) : CacheManager :=
  let batchKeys := match entry.idToBatchIndexAndSize.lookup data.1 with
    | some (batchIndex, _) => m.cacheIdAndBatchIdToCacheKey.erase (id, batchIndex)
    | none => m.cacheIdAndBatchIdToCacheKey
  let left := { entry with
    idToBatchIndexAndSize := entry.idToBatchIndexAndSize.erase data.1 }
  let unbound := { m.setKeyToId ((m.keyToId isPrefix).erase data) isPrefix with
    cacheIdAndBatchIdToCacheKey := batchKeys }
  { unbound with
    cacheIdToEntry :=
      if left.extRefCount = 0 ∧ left.idToBatchIndexAndSize.entries = [] then
        m.cacheIdToEntry.erase id
      else m.cacheIdToEntry.insert id left }

/-- The tensors of the cache that are left; no indices stand for all of them. -/
def remainingTensors (id : Int64) (indices : Finset ℕ) (m : CacheManager) : Finset ℕ :=
  if indices = ∅ then ∅ else (m.cacheIdToTensorIndices.lookup id).getD ∅ \ indices

def removeCacheKey (copy : Option GeError) (data : DataCacheKey) (isPrefix : Bool)
    (indices : Finset ℕ) (m : CacheManager) : Option GeError × CacheManager :=
  match (m.keyToId isPrefix).lookup data with
  | none => (none, m)
  | some id =>
    match m.cacheIdToEntry.lookup id with
    | none => (none, m.setKeyToId ((m.keyToId isPrefix).erase data) isPrefix)
    | some entry =>
      if ¬ entry.isOwned then (none, m)
      else
        let remaining := m.remainingTensors id indices
        let removed := { m with
          cacheIdToTensorIndices := m.cacheIdToTensorIndices.insert id remaining }
        if remaining = ∅ then (removed.unbindKey data isPrefix id entry).updateCacheTable copy
        else (none, removed)

end CacheManager

inductive CacheCall where
  | allocate (answers : PoolAnswers) (copy : Option GeError) (id : Int64) (desc : CacheDesc)
      (keys : List CacheKey)
  | registerCacheEntry (copy : Option GeError) (id : Int64) (keys : List CacheKey)
      (desc : CacheDesc) (addrs : List UInt64) (tensorSize : Int64)
  | unregisterCacheEntry (copy : Option GeError) (id : Int64)
  | deallocate (copy : Option GeError) (id : Int64)
  | removeCacheKey (copy : Option GeError) (data : DataCacheKey) (isPrefix : Bool)
      (indices : Finset ℕ)

def CacheManager.call (m : CacheManager) : CacheCall → Option GeError × CacheManager
  | .allocate answers copy id desc keys => m.allocate answers copy id desc keys
  | .registerCacheEntry copy id keys desc addrs tensorSize =>
    m.registerCacheEntry copy id keys desc addrs tensorSize
  | .unregisterCacheEntry copy id => m.unregisterCacheEntry copy id
  | .deallocate copy id => m.deallocate copy id
  | .removeCacheKey copy data isPrefix indices => m.removeCacheKey copy data isPrefix indices

end Hixl.Llm
