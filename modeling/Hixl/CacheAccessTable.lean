import Hixl.ByteMemory
import Hixl.HeldResources
import Hixl.MachineWords
import Mathlib.Data.List.AList

/-!
# The cache access table

An engine publishes its caches in a buffer of one megabyte: a header, one
summary of variable length for each cache, and one index for each cache key.  A
peer copies the buffer and parses it.  The parser looks at the tensor count of a
summary before it knows that the summary is inside the buffer; if it is not,
every value of the count leads to the same error.
-/

namespace Hixl.Llm

open ByteMemory

/-- The codes of type `ge::Status` other than `SUCCESS`. -/
inductive GeError where
  | failed
  | paramInvalid
  | outOfMemory
  | featureNotEnabled
  | kvCacheNotExist
  | acl (code : ℕ)
  deriving DecidableEq, Repr

abbrev Map (κ ν : Type) := AList fun _ : κ => ν

/-- The id of a request or of a prefix, and the id of a model. -/
abbrev DataCacheKey := UInt64 × UInt64

/-- The enumerations `CachePlacement` and `CacheMemType` are numbers here: a
parsed table may have any. -/
structure CacheEntry where
  numBlocks : UInt64 := 0
  batchSize : UInt32 := 0
  tensorSize : UInt64 := 0
  stride : UInt64 := 0
  extRefCount : ℕ := 0
  placement : UInt32 := 0
  cacheAddrs : List UInt64 := []
  idToBatchIndexAndSize : Map UInt64 (UInt32 × UInt64) := ∅
  isOwned : Bool := false
  remoteAccessible : Bool := true
  cacheMemType : UInt32 := 0

def CacheEntry.published (entry : CacheEntry) : CacheEntry :=
  { entry with extRefCount := 0, idToBatchIndexAndSize := ∅, isOwned := false }

def kCacheAccessTableBufferSize : ℕ := 1024 * 1024

def kHeaderSize : ℕ := 24

def kIndexSize : ℕ := 24

/-- `sizeof(CacheSummary)`, without the addresses of the tensors. -/
def kSummarySize : ℕ := 64

def summarySize (entry : CacheEntry) : ℕ := kSummarySize + 8 * entry.cacheAddrs.length

/-- `FillCacheSummary`; the bytes between the flag and the memory type are padding. -/
def fillCacheSummary (cacheId : Int64) (entry : CacheEntry) : List UInt8 :=
  bytesOf 8 cacheId.toUInt64.toNat ++ (bytesOf 8 entry.numBlocks.toNat ++
  (bytesOf 8 entry.batchSize.toNat ++ (bytesOf 8 entry.tensorSize.toNat ++
  (bytesOf 8 entry.stride.toNat ++ (bytesOf 8 entry.placement.toNat ++
  (bytesOf 8 entry.cacheAddrs.length ++ (bytesOf 4 entry.remoteAccessible.toNat ++
  (bytesOf 4 entry.cacheMemType.toNat ++
    entry.cacheAddrs.flatMap fun addr => bytesOf 8 addr.toNat))))))))

def indexBytes (key : DataCacheKey) (cacheId : Int64) : List UInt8 :=
  bytesOf 8 cacheId.toUInt64.toNat ++ (bytesOf 8 key.1.toNat ++ bytesOf 8 key.2.toNat)

def writeSummaries : List (Σ _ : Int64, CacheEntry) → ℕ → (ℕ → UInt8) → ℕ × (ℕ → UInt8) :=
  storeAll (fun cache => summarySize cache.2) fun cache => fillCacheSummary cache.1 cache.2

def writeIndices : List (Σ _ : DataCacheKey, Int64) → ℕ → (ℕ → UInt8) → ℕ × (ℕ → UInt8) :=
  storeAll (fun _ => kIndexSize) fun index => indexBytes index.1 index.2

structure TableBuffer where
  size : ℕ
  bytes : ℕ → UInt8

variable (caches : Map Int64 CacheEntry) (keys : Map DataCacheKey Int64)

def tableSize : ℕ :=
  kHeaderSize + kIndexSize * keys.entries.length +
    (caches.entries.map fun cache => summarySize cache.2).sum

def toBuffer (version : UInt64) : Except GeError TableBuffer :=
  if tableSize caches keys ≤ kCacheAccessTableBufferSize then
    let header := bytesOf 8 version.toNat ++ (bytesOf 8 caches.entries.length ++
      bytesOf 8 keys.entries.length)
    let written := writeSummaries caches.entries kHeaderSize (store (fun _ => 0) 0 header)
    .ok ⟨tableSize caches keys, (writeIndices keys.entries written.1 written.2).2⟩
  else .error .paramInvalid

variable (mem : ℕ → UInt8) (bufferSize : ℕ)

def readUInt64 (offset : ℕ) : UInt64 := .ofNat (word mem offset 8)

def numTensorsAt (offset : ℕ) : ℕ := word mem (offset + 48) 8

def toCacheEntry (offset : ℕ) : CacheEntry where
  numBlocks := readUInt64 mem (offset + 8)
  batchSize := .ofNat (word mem (offset + 16) 8)
  tensorSize := readUInt64 mem (offset + 24)
  stride := readUInt64 mem (offset + 32)
  placement := .ofNat (word mem (offset + 40) 8)
  remoteAccessible := mem (offset + 56) ≠ 0
  cacheMemType := .ofNat (word mem (offset + 60) 4)
  cacheAddrs := (List.range (numTensorsAt mem offset)).map fun i =>
    readUInt64 mem (offset + kSummarySize + 8 * i)

/-- The end of an array behind a head, if nothing overflows and it is in the buffer. -/
def endInBuffer (offset head count itemSize : ℕ) : Option ℕ :=
  if wordMax 64 < count * itemSize then none
  else (checkedAdd 64 head (count * itemSize)).bind fun size =>
    (checkedAdd 64 offset size).bind fun stop => if stop ≤ bufferSize then some stop else none

def loadSummaries : ℕ → ℕ → Map Int64 CacheEntry → Except GeError (ℕ × Map Int64 CacheEntry)
  | 0, offset, caches => .ok (offset, caches)
  | n + 1, offset, caches =>
    match endInBuffer bufferSize offset kSummarySize (numTensorsAt mem offset) 8 with
    | none => .error .paramInvalid
    | some stop =>
      let id := (readUInt64 mem offset).toInt64
      if id ∈ caches then .error .paramInvalid
      else loadSummaries n stop (caches.insert id (toCacheEntry mem offset))

def loadIndices : ℕ → ℕ → Map DataCacheKey Int64 → Except GeError (Map DataCacheKey Int64)
  | 0, _, keys => .ok keys
  | n + 1, offset, keys =>
    let id := (readUInt64 mem offset).toInt64
    let key := (readUInt64 mem (offset + 8), readUInt64 mem (offset + 16))
    if id ∉ caches then .error .failed
    else if key ∈ keys then .error .paramInvalid
    else loadIndices n (offset + kIndexSize) (keys.insert key id)

structure CacheAccessTable where
  cacheIdToEntry : Map Int64 CacheEntry := ∅
  cacheKeyToCacheId : Map DataCacheKey Int64 := ∅
  versionNum : UInt64 := 0

/-- `LoadFromBuffer` up to the swap of the tables. -/
def parseTable : Except GeError CacheAccessTable :=
  if bufferSize < kHeaderSize then .error .paramInvalid
  else if (bufferSize - kHeaderSize) / kSummarySize < word mem 8 8 then .error .paramInvalid
  else match loadSummaries mem bufferSize (word mem 8 8) kHeaderSize ∅ with
    | .error status => .error status
    | .ok (offset, caches) =>
      match endInBuffer bufferSize offset 0 (word mem 16 8) kIndexSize with
      | none => .error .paramInvalid
      | some _ => (loadIndices caches mem (word mem 16 8) offset ∅).map fun keys =>
          ⟨caches, keys, readUInt64 mem 0⟩

/-- No error is `SUCCESS`. -/
def CacheAccessTable.loadFromBuffer (table : CacheAccessTable) :
    Option GeError × CacheAccessTable :=
  match parseTable mem bufferSize with
  | .error status => (some status, table)
  | .ok parsed => (none, parsed)

/-! ## The parser stays in the buffer -/

variable {mem bufferSize caches keys} {mem' : ℕ → UInt8}

theorem endInBuffer_eq_some {offset head count itemSize stop : ℕ} :
    endInBuffer bufferSize offset head count itemSize = some stop ↔
      stop = offset + (head + count * itemSize) ∧ stop ≤ bufferSize ∧ stop ≤ wordMax 64 := by
  unfold endInBuffer
  generalize count * itemSize = array
  split_ifs with hmul
  · refine iff_of_false (by simp) fun h => ?_
    omega
  · simp only [Option.bind_eq_some_iff, checkedAdd_eq_some_iff]
    constructor
    · rintro ⟨_, ⟨rfl, -⟩, _, ⟨rfl, hsum⟩, hstop⟩
      split_ifs at hstop with hle
      cases hstop
      exact ⟨rfl, hle, hsum⟩
    · rintro ⟨rfl, hle, hsum⟩
      exact ⟨_, ⟨rfl, by omega⟩, _, ⟨rfl, hsum⟩, if_pos hle⟩

section Agree

variable (hagree : ∀ i < bufferSize, mem i = mem' i)

include hagree

theorem word_agree (offset k : ℕ) (hle : offset + k ≤ bufferSize) :
    word mem offset k = word mem' offset k :=
  word_congr fun i _ hlt => hagree i (by omega)

theorem readUInt64_agree (offset : ℕ) (hle : offset + 8 ≤ bufferSize) :
    readUInt64 mem offset = readUInt64 mem' offset := by
  rw [readUInt64, readUInt64, word_agree hagree offset 8 hle]

theorem toCacheEntry_agree {offset : ℕ}
    (hle : offset + (kSummarySize + numTensorsAt mem offset * 8) ≤ bufferSize) :
    toCacheEntry mem offset = toCacheEntry mem' offset := by
  unfold kSummarySize at hle
  have hcount : numTensorsAt mem offset = numTensorsAt mem' offset :=
    word_agree hagree _ _ (by omega)
  have haddrs : ∀ i ∈ List.range (numTensorsAt mem offset),
      readUInt64 mem (offset + kSummarySize + 8 * i) =
        readUInt64 mem' (offset + kSummarySize + 8 * i) := by
    intro i hi
    have := List.mem_range.mp hi
    exact readUInt64_agree hagree _ (by unfold kSummarySize; omega)
  rw [toCacheEntry, toCacheEntry, List.map_congr_left haddrs, ← hcount,
    readUInt64_agree hagree (offset + 8) (by omega),
    word_agree hagree (offset + 16) 8 (by omega),
    readUInt64_agree hagree (offset + 24) (by omega),
    readUInt64_agree hagree (offset + 32) (by omega),
    word_agree hagree (offset + 40) 8 (by omega), hagree (offset + 56) (by omega),
    word_agree hagree (offset + 60) 4 (by omega)]

theorem loadSummaries_agree (n offset : ℕ) (caches : Map Int64 CacheEntry) :
    loadSummaries mem bufferSize n offset caches =
      loadSummaries mem' bufferSize n offset caches := by
  induction n generalizing offset caches with
  | zero => rfl
  | succ n ih =>
    unfold loadSummaries
    by_cases hhead : offset + kSummarySize ≤ bufferSize
    · have hcount : numTensorsAt mem offset = numTensorsAt mem' offset :=
        word_agree hagree _ _ (by unfold kSummarySize at hhead; omega)
      rw [← hcount]
      cases hend : endInBuffer bufferSize offset kSummarySize (numTensorsAt mem offset) 8 with
      | none => dsimp only
      | some stop =>
        obtain ⟨hstop, hle, -⟩ := endInBuffer_eq_some.mp hend
        dsimp only
        rw [readUInt64_agree hagree _ (by unfold kSummarySize at hhead; omega),
          toCacheEntry_agree hagree (hstop ▸ hle), ih]
    · -- The tensor count may lie behind the buffer, and then it does not matter.
      have hnone : ∀ count, endInBuffer bufferSize offset kSummarySize count 8 = none := by
        intro count
        rw [Option.eq_none_iff_forall_ne_some]
        intro stop hend
        obtain ⟨hstop, hle, -⟩ := endInBuffer_eq_some.mp hend
        omega
      rw [hnone, hnone]

theorem loadIndices_agree {n offset : ℕ} (hle : offset + n * kIndexSize ≤ bufferSize)
    (keys : Map DataCacheKey Int64) :
    loadIndices caches mem n offset keys = loadIndices caches mem' n offset keys := by
  induction n generalizing offset keys with
  | zero => rfl
  | succ n ih =>
    unfold kIndexSize at hle
    have hnext : offset + kIndexSize + n * kIndexSize ≤ bufferSize := by
      unfold kIndexSize
      omega
    unfold loadIndices
    rw [readUInt64_agree hagree offset (by omega), readUInt64_agree hagree (offset + 8) (by omega),
      readUInt64_agree hagree (offset + 16) (by omega)]
    dsimp only
    rw [ih hnext]

theorem parseTable_agree : parseTable mem bufferSize = parseTable mem' bufferSize := by
  unfold parseTable
  by_cases hheader : bufferSize < kHeaderSize
  · rw [if_pos hheader, if_pos hheader]
  rw [if_neg hheader, if_neg hheader]
  unfold kHeaderSize at hheader
  rw [word_agree hagree 8 8 (by omega), word_agree hagree 16 8 (by omega),
    readUInt64_agree hagree 0 (by omega), loadSummaries_agree hagree]
  split_ifs
  · rfl
  cases loadSummaries mem' bufferSize (word mem' 8 8) kHeaderSize ∅ with
  | error status => dsimp only
  | ok loaded =>
    cases hend : endInBuffer bufferSize loaded.1 0 (word mem' 16 8) kIndexSize with
    | none => simp only [hend]
    | some stop =>
      obtain ⟨hstop, hle, -⟩ := endInBuffer_eq_some.mp hend
      simp only [hend]
      rw [loadIndices_agree hagree (by omega)]

end Agree

theorem loadIndices_bound {n offset : ℕ} {keys keys' : Map DataCacheKey Int64}
    (hload : loadIndices caches mem n offset keys = .ok keys')
    (hbound : ∀ key id, keys.lookup key = some id → id ∈ caches) :
    ∀ key id, keys'.lookup key = some id → id ∈ caches := by
  induction n generalizing offset keys with
  | zero =>
    cases hload
    exact hbound
  | succ n ih =>
    rw [loadIndices] at hload
    split_ifs at hload with hid hkey
    exact ih hload (HeldResources.forall_lookup_insert hbound hid)

theorem parseTable_bound {table : CacheAccessTable}
    (hparse : parseTable mem bufferSize = .ok table) :
    ∀ key id, table.cacheKeyToCacheId.lookup key = some id → id ∈ table.cacheIdToEntry := by
  unfold parseTable at hparse
  split_ifs at hparse
  split at hparse
  · cases hparse
  next offset caches _ =>
  split at hparse
  · cases hparse
  cases hkeys : loadIndices caches mem (word mem 16 8) offset ∅ with
  | error status =>
    rw [hkeys] at hparse
    cases hparse
  | ok keys =>
    rw [hkeys] at hparse
    cases hparse
    exact loadIndices_bound hkeys (by simp)

/-- Nothing behind the buffer influences the parser, an error leaves the table
as it was, and after a success every key is bound to a loaded entry. -/
theorem loadFromBuffer_bounded (table : CacheAccessTable) (bufferSize : ℕ) (mem mem' : ℕ → UInt8)
    (hagree : ∀ i < bufferSize, mem i = mem' i) :
    table.loadFromBuffer mem bufferSize = table.loadFromBuffer mem' bufferSize ∧
      ((table.loadFromBuffer mem bufferSize).1 ≠ none →
        (table.loadFromBuffer mem bufferSize).2 = table) ∧
      ((table.loadFromBuffer mem bufferSize).1 = none →
        ∀ key id, (table.loadFromBuffer mem bufferSize).2.cacheKeyToCacheId.lookup key = some id →
          id ∈ (table.loadFromBuffer mem bufferSize).2.cacheIdToEntry) := by
  unfold CacheAccessTable.loadFromBuffer
  refine ⟨by rw [parseTable_agree hagree], ?_⟩
  cases hparse : parseTable mem bufferSize with
  | error status => exact ⟨fun _ => rfl, fun h => absurd h (by simp)⟩
  | ok parsed => exact ⟨fun h => absurd rfl h, fun _ => parseTable_bound hparse⟩

/-- Two caches, of which the first fills the buffer. -/
def cutTable : ℕ → UInt8 := fun i => if i = 8 then 2 else if i = 72 then 8 else 0

theorem loadFromBuffer_bounded_cut :
    (({} : CacheAccessTable).loadFromBuffer cutTable 152).1 = some .paramInvalid ∧
      ({} : CacheAccessTable).loadFromBuffer cutTable 152 =
        ({} : CacheAccessTable).loadFromBuffer (fun i => if i < 152 then cutTable i else 255) 152 :=
  ⟨by decide +kernel, (loadFromBuffer_bounded {} 152 cutTable _ fun _ hlt => (if_pos hlt).symm).1⟩

/-! ## The round trip -/

abbrev SummariesAt : (ℕ → UInt8) → List (Σ _ : Int64, CacheEntry) → ℕ → Prop :=
  HoldsAll (fun cache => summarySize cache.2) fun cache => fillCacheSummary cache.1 cache.2

abbrev IndicesAt : (ℕ → UInt8) → List (Σ _ : DataCacheKey, Int64) → ℕ → Prop :=
  HoldsAll (fun _ => kIndexSize) fun index => indexBytes index.1 index.2

def summariesSize (caches : List (Σ _ : Int64, CacheEntry)) : ℕ :=
  (caches.map fun cache => summarySize cache.2).sum

theorem length_fillCacheSummary (id : Int64) (entry : CacheEntry) :
    (fillCacheSummary id entry).length = summarySize entry := by
  have haddrs : (entry.cacheAddrs.flatMap fun addr => bytesOf 8 addr.toNat).length =
      8 * entry.cacheAddrs.length := by
    induction entry.cacheAddrs with
    | nil => rfl
    | cons addr rest ih =>
      rw [List.flatMap_cons, List.length_append, ih, length_bytesOf, List.length_cons]
      omega
  simp only [fillCacheSummary, List.length_append, length_bytesOf, haddrs, summarySize,
    kSummarySize]
  omega

theorem length_indexBytes (key : DataCacheKey) (id : Int64) :
    (indexBytes key id).length = kIndexSize := by
  simp [indexBytes, kIndexSize]

theorem readUInt64_of_holds {offset : ℕ} {value : UInt64}
    (hholds : Holds mem offset (bytesOf 8 value.toNat)) : readUInt64 mem offset = value := by
  rw [readUInt64, hholds.word_eq value.toNat_lt, UInt64.ofNat_toNat]

theorem addrs_of_holds {addrs : List UInt64} {offset : ℕ}
    (hholds : Holds mem offset (addrs.flatMap fun addr => bytesOf 8 addr.toNat)) :
    ((List.range addrs.length).map fun i => readUInt64 mem (offset + 8 * i)) = addrs := by
  induction addrs generalizing offset with
  | nil => rfl
  | cons addr rest ih =>
    obtain ⟨hfirst, hrest⟩ := hholds.append
    rw [length_bytesOf] at hrest
    have htail := ih hrest
    rw [List.length_cons, List.range_succ_eq_map, List.map_cons, List.map_map, Nat.mul_zero,
      Nat.add_zero, readUInt64_of_holds hfirst]
    refine congrArg _ ((List.map_congr_left fun i _ => ?_).trans htail)
    rw [Function.comp_apply, Nat.succ_eq_add_one, Nat.mul_succ, Nat.add_comm (8 * i), Nat.add_assoc]

theorem summary_of_holds {id : Int64} {entry : CacheEntry} {offset : ℕ}
    (hcount : entry.cacheAddrs.length < 2 ^ 64)
    (hholds : Holds mem offset (fillCacheSummary id entry)) :
    (readUInt64 mem offset).toInt64 = id ∧ numTensorsAt mem offset = entry.cacheAddrs.length ∧
      toCacheEntry mem offset = entry.published := by
  obtain ⟨hid, hholds⟩ := hholds.append
  obtain ⟨hblocks, hholds⟩ := hholds.append
  obtain ⟨hbatch, hholds⟩ := hholds.append
  obtain ⟨htensor, hholds⟩ := hholds.append
  obtain ⟨hstride, hholds⟩ := hholds.append
  obtain ⟨hplacement, hholds⟩ := hholds.append
  obtain ⟨htensors, hholds⟩ := hholds.append
  obtain ⟨haccessible, hholds⟩ := hholds.append
  obtain ⟨hmemType, haddrs⟩ := hholds.append
  simp only [length_bytesOf, Nat.add_assoc, Nat.reduceAdd] at *
  have hnum : numTensorsAt mem offset = entry.cacheAddrs.length := htensors.word_eq hcount
  have hword : ∀ n : UInt32, n.toNat < 256 ^ 8 := fun n => n.toNat_lt.trans (by decide)
  have hflag : (decide (mem (offset + 56) ≠ 0)) = entry.remoteAccessible := by
    rw [haccessible.cons.1]
    cases entry.remoteAccessible <;> rfl
  refine ⟨by rw [readUInt64_of_holds hid, Int64.toInt64_toUInt64], hnum, ?_⟩
  rw [toCacheEntry, hnum, readUInt64_of_holds hblocks, hbatch.word_eq (hword _),
    readUInt64_of_holds htensor, readUInt64_of_holds hstride, hplacement.word_eq (hword _), hflag,
    hmemType.word_eq entry.cacheMemType.toNat_lt, kSummarySize, addrs_of_holds haddrs]
  simp only [UInt32.ofNat_toNat]
  rfl

section Maps

variable {κ ν ν' : Type} [DecidableEq κ]

def insertAll (f : ν → ν') (entries : List (Σ _ : κ, ν)) (map : Map κ ν') : Map κ ν' :=
  entries.foldl (fun map entry => map.insert entry.1 (f entry.2)) map

theorem lookup_insertAll (f : ν → ν') {entries : List (Σ _ : κ, ν)} (hnodup : entries.NodupKeys)
    (map : Map κ ν') (k : κ) :
    (insertAll f entries map).lookup k = ((entries.dlookup k).map f).or (map.lookup k) := by
  induction entries generalizing map with
  | nil => rfl
  | cons entry rest ih =>
    obtain ⟨hfirst, hrest⟩ := List.nodupKeys_cons.mp hnodup
    rw [insertAll, List.foldl_cons, ← insertAll, ih hrest]
    by_cases hk : k = entry.1
    · subst hk
      rw [List.dlookup_eq_none.mpr hfirst, AList.lookup_insert,
        show (entry :: rest).dlookup entry.1 = some entry.2 from List.dlookup_cons_eq _ _ _]
      rfl
    · rw [AList.lookup_insert_ne hk, List.dlookup_cons_ne _ _ hk]

end Maps

theorem loadSummaries_of_at {entries : List (Σ _ : Int64, CacheEntry)} {offset : ℕ}
    (hat : SummariesAt mem entries offset) (hle : offset + summariesSize entries ≤ bufferSize)
    (hword : bufferSize ≤ wordMax 64) (hnodup : entries.NodupKeys)
    {caches : Map Int64 CacheEntry} (hnew : ∀ cache ∈ entries, cache.1 ∉ caches) :
    loadSummaries mem bufferSize entries.length offset caches =
      .ok (offset + summariesSize entries, insertAll CacheEntry.published entries caches) := by
  induction entries generalizing offset caches with
  | nil => rfl
  | cons cache rest ih =>
    obtain ⟨hfirst, hrest⟩ := List.nodupKeys_cons.mp hnodup
    obtain ⟨habsent, hnew⟩ := List.forall_mem_cons.mp hnew
    have hsize : summariesSize (cache :: rest) = summarySize cache.2 + summariesSize rest := rfl
    have hsummary : summarySize cache.2 = kSummarySize + cache.2.cacheAddrs.length * 8 :=
      congrArg _ (Nat.mul_comm _ _)
    have hcount : cache.2.cacheAddrs.length < 2 ^ 64 := by
      rw [wordMax_64] at hword
      omega
    obtain ⟨hid, hnum, hentry⟩ := summary_of_holds hcount hat.1
    have hend : endInBuffer bufferSize offset kSummarySize (numTensorsAt mem offset) 8 =
        some (offset + summarySize cache.2) := by
      rw [hnum, endInBuffer_eq_some, hsummary]
      omega
    rw [List.length_cons, loadSummaries, hend]
    dsimp only
    have hrestAt : SummariesAt mem rest (offset + summarySize cache.2) := hat.2
    rw [hid, hentry, if_neg habsent, ih hrestAt (by omega) hrest, hsize, Nat.add_assoc]
    · rfl
    · intro other hother hmem
      obtain heq | hmem := (AList.mem_insert _).mp hmem
      · exact hfirst (heq ▸ List.mem_map_of_mem hother)
      · exact hnew other hother hmem

/-- The keys are read, unless one of them is bound to a cache that is not in the
table. -/
theorem loadIndices_of_at {entries : List (Σ _ : DataCacheKey, Int64)} {offset : ℕ}
    (hat : IndicesAt mem entries offset) (hnodup : entries.NodupKeys)
    {keys : Map DataCacheKey Int64} (hnew : ∀ index ∈ entries, index.1 ∉ keys) :
    loadIndices caches mem entries.length offset keys = .ok (insertAll id entries keys) ∨
      loadIndices caches mem entries.length offset keys = .error .failed ∧
        ∃ index ∈ entries, index.2 ∉ caches := by
  induction entries generalizing offset keys with
  | nil => exact Or.inl rfl
  | cons index rest ih =>
    obtain ⟨hfirst, hrest⟩ := List.nodupKeys_cons.mp hnodup
    obtain ⟨habsent, hnew⟩ := List.forall_mem_cons.mp hnew
    obtain ⟨hcache, hholds⟩ := hat.1.append
    obtain ⟨hreq, hmodel⟩ := hholds.append
    simp only [length_bytesOf, Nat.add_assoc, Nat.reduceAdd] at hreq hmodel
    rw [List.length_cons, loadIndices, readUInt64_of_holds hcache, readUInt64_of_holds hreq,
      readUInt64_of_holds hmodel, Int64.toInt64_toUInt64]
    by_cases hid : index.2 ∈ caches
    · rw [if_neg (not_not.mpr hid), if_neg habsent]
      refine (ih hat.2 hrest ?_).imp_right (And.imp_right fun ⟨other, hother, hmissing⟩ =>
        ⟨other, List.mem_cons_of_mem _ hother, hmissing⟩)
      intro other hother hmem
      obtain heq | hmem := (AList.mem_insert _).mp hmem
      · exact hfirst ((show other.1 = index.1 from heq) ▸ List.mem_map_of_mem hother)
      · exact hnew other hother hmem
    · exact Or.inr ⟨if_pos hid, index, List.mem_cons_self, hid⟩

theorem summariesSize_ge (entries : List (Σ _ : Int64, CacheEntry)) :
    kSummarySize * entries.length ≤ summariesSize entries := by
  induction entries with
  | nil => exact le_rfl
  | cons cache rest ih =>
    have hsize : summariesSize (cache :: rest) =
        kSummarySize + 8 * cache.2.cacheAddrs.length + summariesSize rest := rfl
    rw [List.length_cons, Nat.mul_succ]
    omega

theorem parseTable_of_at {version : UInt64}
    (hheader : Holds mem 0 (bytesOf 8 version.toNat ++ (bytesOf 8 caches.entries.length ++
      bytesOf 8 keys.entries.length))) (hsummaries : SummariesAt mem caches.entries kHeaderSize)
    (hindices : IndicesAt mem keys.entries (kHeaderSize + summariesSize caches.entries))
    (hfits : tableSize caches keys ≤ bufferSize) (hword : bufferSize ≤ wordMax 64) :
    parseTable mem bufferSize = .ok ⟨insertAll CacheEntry.published caches.entries ∅,
        insertAll id keys.entries ∅, version⟩ ∨
      parseTable mem bufferSize = .error .failed ∧
        ∃ key id, keys.lookup key = some id ∧ id ∉ caches := by
  obtain ⟨hversion, hcounts⟩ := hheader.append
  obtain ⟨hcount, hkeys⟩ := hcounts.append
  simp only [length_bytesOf, Nat.reduceAdd] at hcount hkeys
  have hge : 64 * caches.entries.length ≤ summariesSize caches.entries :=
    summariesSize_ge caches.entries
  have hsize : tableSize caches keys =
      24 + 24 * keys.entries.length + summariesSize caches.entries := rfl
  have hmax := wordMax_64
  have hheaderSize : kHeaderSize = 24 := rfl
  have hindexSize : kIndexSize = 24 := rfl
  have hsummarySize : kSummarySize = 64 := rfl
  have hloaded := loadSummaries_of_at hsummaries (by omega) hword caches.nodupKeys
    (fun _ _ => AList.notMem_empty _)
  have hend : endInBuffer bufferSize (kHeaderSize + summariesSize caches.entries) 0
      keys.entries.length kIndexSize = some (kHeaderSize + summariesSize caches.entries +
        (0 + keys.entries.length * kIndexSize)) := by
    rw [endInBuffer_eq_some, hindexSize]
    omega
  have hmem : ∀ id, id ∈ insertAll CacheEntry.published caches.entries ∅ ↔ id ∈ caches := by
    intro id
    rw [← AList.lookup_isSome, lookup_insertAll _ caches.nodupKeys, AList.lookup_empty,
      Option.or_none, Option.isSome_map]
    exact AList.lookup_isSome
  rw [parseTable, if_neg (by omega), hcount.word_eq (by omega), if_neg, hloaded,
    hkeys.word_eq (by omega)]
  · dsimp only
    rw [hend, readUInt64_of_holds hversion]
    obtain hkeys | ⟨hkeys, index, hindex, hmissing⟩ :=
      loadIndices_of_at hindices keys.nodupKeys fun _ _ => AList.notMem_empty _
    · exact Or.inl (by rw [hkeys]; rfl)
    · exact Or.inr ⟨by rw [hkeys]; rfl, index.1, index.2, AList.mem_lookup_iff.mpr hindex,
        mt (hmem _).mpr hmissing⟩
  · rw [not_lt, Nat.le_div_iff_mul_le (by decide), hsummarySize]
    omega

/-- What the writer puts into the buffer, the parser reads: the version, the key
map, and of every cache the published fields, whatever is behind the table.  A
key without its cache makes it fail. -/
theorem parseTable_written {version : UInt64} {buffer : TableBuffer}
    (hwrite : toBuffer caches keys version = .ok buffer)
    (hpadded : ∀ i < buffer.size, mem i = buffer.bytes i) :
    ∃ loaded, (parseTable mem kCacheAccessTableBufferSize = .ok loaded ∨
        parseTable mem kCacheAccessTableBufferSize = .error .failed ∧
          ∃ key id, keys.lookup key = some id ∧ id ∉ caches) ∧
      loaded.versionNum = version ∧ (∀ key, loaded.cacheKeyToCacheId.lookup key = keys.lookup key) ∧
      ∀ id, loaded.cacheIdToEntry.lookup id = (caches.lookup id).map CacheEntry.published := by
  unfold toBuffer at hwrite
  split_ifs at hwrite with hfits
  cases hwrite
  generalize hheader : bytesOf 8 version.toNat ++ (bytesOf 8 caches.entries.length ++
    bytesOf 8 keys.entries.length) = header at hpadded
  obtain ⟨hoffset, hcaches, hbelow⟩ := storeAll_spec
    (fun cache : Σ _ : Int64, CacheEntry => length_fillCacheSummary cache.1 cache.2)
    caches.entries kHeaderSize (store (fun _ => 0) 0 header)
  change (writeSummaries _ _ _).1 = kHeaderSize + summariesSize caches.entries at hoffset
  obtain ⟨-, hindices, hkeep⟩ := storeAll_spec
    (fun index : Σ _ : DataCacheKey, Int64 => length_indexBytes index.1 index.2) keys.entries
    (writeSummaries caches.entries kHeaderSize (store (fun _ => 0) 0 header)).1
    (writeSummaries caches.entries kHeaderSize (store (fun _ => 0) 0 header)).2
  have hsize : tableSize caches keys =
      kHeaderSize + kIndexSize * keys.entries.length + summariesSize caches.entries := rfl
  rw [hoffset] at hindices hkeep
  have hwritten : ∀ i < kHeaderSize + summariesSize caches.entries,
      mem i = (writeSummaries caches.entries kHeaderSize (store (fun _ => 0) 0 header)).2 i :=
    fun i hlt => (hpadded i (by dsimp only; omega)).trans (by rw [hoffset]; exact hkeep i hlt)
  have hsummaries : SummariesAt mem caches.entries kHeaderSize :=
    HoldsAll.congr (fun cache => length_fillCacheSummary _ _) hcaches fun i _ hlt => hwritten i hlt
  have hindices : IndicesAt mem keys.entries (kHeaderSize + summariesSize caches.entries) := by
    refine HoldsAll.congr (fun index => length_indexBytes _ _) hindices fun i _ hlt => ?_
    rw [← hoffset]
    refine hpadded i ?_
    rw [List.map_const', List.sum_replicate_nat, Nat.mul_comm] at hlt
    dsimp only
    omega
  have hlength : header.length = kHeaderSize := by
    rw [← hheader]
    simp [kHeaderSize]
  have hholds : Holds mem 0 header := holds_store.congr fun i _ hlt => by
    rw [hlength, Nat.zero_add] at hlt
    exact (hwritten i (by omega)).trans (hbelow i hlt)
  refine ⟨_, parseTable_of_at (hheader ▸ hholds) hsummaries hindices hfits (by decide), rfl,
    fun key => ?_, fun id => ?_⟩
  · refine (lookup_insertAll id keys.nodupKeys ∅ key).trans ?_
    rw [AList.lookup_empty, Option.or_none, Option.map_id]
    rfl
  · refine (lookup_insertAll _ caches.nodupKeys ∅ id).trans ?_
    rw [AList.lookup_empty, Option.or_none]
    rfl

theorem loadFromBuffer_toBuffer (version : UInt64) (caches : Map Int64 CacheEntry)
    (keys : Map DataCacheKey Int64) (hids : ∀ key id, keys.lookup key = some id → id ∈ caches)
    (buffer : TableBuffer) (hwrite : toBuffer caches keys version = .ok buffer) (mem : ℕ → UInt8)
    (hpadded : ∀ i < buffer.size, mem i = buffer.bytes i) (table : CacheAccessTable) :
    ∃ loaded, table.loadFromBuffer mem kCacheAccessTableBufferSize = (none, loaded) ∧
      loaded.versionNum = version ∧ (∀ key, loaded.cacheKeyToCacheId.lookup key = keys.lookup key) ∧
      ∀ id, loaded.cacheIdToEntry.lookup id = (caches.lookup id).map CacheEntry.published := by
  obtain ⟨loaded, hparse, hloaded⟩ := parseTable_written hwrite hpadded
  have hparse := hparse.resolve_right fun ⟨_, key, id, hkey, hmissing⟩ =>
    hmissing (hids key id hkey)
  exact ⟨loaded, by rw [CacheAccessTable.loadFromBuffer, hparse], hloaded⟩

def oneCache : Map Int64 CacheEntry :=
  AList.singleton 1 { batchSize := 2, tensorSize := 16, stride := 8, cacheAddrs := [4096] }

theorem loadFromBuffer_toBuffer_one : ∃ buffer,
    toBuffer oneCache (AList.singleton (5, 7) 1) 3 = .ok buffer ∧
    ∃ loaded, CacheAccessTable.loadFromBuffer
        (fun i => if i < buffer.size then buffer.bytes i else 255) kCacheAccessTableBufferSize
        ⟨∅, ∅, 0⟩ = (none, loaded) ∧
      loaded.versionNum = 3 ∧ loaded.cacheKeyToCacheId.lookup (5, 7) = some 1 := by
  have hids : ∀ key id, (AList.singleton (5, 7) 1 : Map DataCacheKey Int64).lookup key =
      some id → id ∈ oneCache := by
    intro key id hlookup
    have hmem := List.mem_singleton.mp (AList.mem_lookup_iff.mp hlookup)
    cases hmem
    decide
  obtain ⟨loaded, hload, hversion, hkeys, -⟩ := loadFromBuffer_toBuffer 3 oneCache
    (AList.singleton (5, 7) 1) hids _ rfl _ (fun i hlt => if_pos hlt) ⟨∅, ∅, 0⟩
  exact ⟨_, rfl, loaded, hload, hversion, hkeys (5, 7)⟩

end Hixl.Llm
