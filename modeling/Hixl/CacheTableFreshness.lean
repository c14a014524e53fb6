import Hixl.CacheAccessTable

/-!
# Lookups in the table of a remote engine

The remote engine publishes its table after every change.  The local engine
copies the published buffer before its first lookup and keeps that copy, so a
lookup is fresh as long as the remote removes nothing after the copy was made.
-/

namespace Hixl.Llm

/-- The maps of one update.  A key may be left when its cache is gone: then the
local engine cannot load the table. -/
structure CacheTables where
  caches : Map Int64 CacheEntry
  keys : Map DataCacheKey Int64

/-- The fields of `TransferCacheReq` that a lookup reads. -/
structure CacheRequest where
  cacheId : Int64
  key : DataCacheKey

def CacheTables.Lists (tables : CacheTables) (request : CacheRequest) : Prop :=
  if 0 < request.cacheId then request.cacheId ∈ tables.caches else request.key ∈ tables.keys

instance (tables : CacheTables) : DecidablePred tables.Lists := fun request =>
  inferInstanceAs (Decidable (if 0 < request.cacheId then _ ∈ tables.caches else _ ∈ tables.keys))

/-- `FindCacheEntry` behind the first pull.  The key of a loaded table always has
an entry, so that `at` does not throw. -/
def CacheAccessTable.find (table : CacheAccessTable) (request : CacheRequest) :
    Except GeError CacheEntry :=
  match if 0 < request.cacheId then table.cacheIdToEntry.lookup request.cacheId
    else (table.cacheKeyToCacheId.lookup request.key).bind table.cacheIdToEntry.lookup with
  | none => .error .kvCacheNotExist
  | some entry => .ok entry

/-- The two ends of one link.  The tables of all successful updates, the newest
first, are not in the source. -/
structure TableLink where
  remoteBuffer : ℕ → UInt8
  remoteVersion : UInt64 := 0
  published : List CacheTables := []
  table : CacheAccessTable := {}

namespace TableLink

def updateTableBuffer (s : TableLink) (tables : CacheTables) (copy : Option GeError) :
    Option GeError × TableLink :=
  let next := { s with remoteVersion := s.remoteVersion + 1 }
  if next.remoteVersion = .ofNat (wordMax 64) then (some .failed, next)
  else match toBuffer tables.caches tables.keys next.remoteVersion, copy with
    | .error status, _ => (some status, next)
    | .ok _, some status => (some status, next)
    | .ok buffer, none => (none, { next with
        remoteBuffer := fun i => if i < buffer.size then buffer.bytes i else s.remoteBuffer i
        published := tables :: s.published })

def syncFromRemote (s : TableLink) (transfer : Option GeError) :
    Option GeError × CacheAccessTable :=
  match transfer with
  | some status => (some status, s.table)
  | none => s.table.loadFromBuffer s.remoteBuffer kCacheAccessTableBufferSize

def firstPull (s : TableLink) (transfer : Option GeError) : Option GeError × CacheAccessTable :=
  if s.table.versionNum = 0 then s.syncFromRemote transfer else (none, s.table)

def findCacheEntry (s : TableLink) (request : CacheRequest) (transfer : Option GeError) :
    Except GeError CacheEntry × TableLink :=
  match s.firstPull transfer with
  | (some status, table) => (.error status, { s with table := table })
  | (none, table) => (table.find request, { s with table := table })

end TableLink

/-- A call at either end, with the answers of the device. -/
inductive TableCall where
  | updateTableBuffer (tables : CacheTables) (copy : Option GeError)
  | findCacheEntry (request : CacheRequest) (transfer : Option GeError)

namespace TableLink

def call (s : TableLink) : TableCall → TableLink
  | .updateTableBuffer tables copy => (s.updateTableBuffer tables copy).2
  | .findCacheEntry request transfer => (s.findCacheEntry request transfer).2

def run (s : TableLink) (calls : List TableCall) : TableLink := calls.foldl call s

/-- The version is not the last one, the table fits, and it is copied to the device. -/
def Publishes (s : TableLink) (tables : CacheTables) (copy : Option GeError) : Prop :=
  s.remoteVersion + 1 ≠ .ofNat (wordMax 64) ∧
    tableSize tables.caches tables.keys ≤ kCacheAccessTableBufferSize ∧ copy = none

/-- An update listed the request, and the newest one does not. -/
def Removed (s : TableLink) (request : CacheRequest) : Prop :=
  (∃ tables ∈ s.published, tables.Lists request) ∧
    ∀ tables ∈ s.published.head?, ¬tables.Lists request

instance (s : TableLink) : DecidablePred s.Removed := fun _ => inferInstanceAs (Decidable (_ ∧ _))

/-- Once the local engine has its copy, an update that is published keeps what
the newest table lists. -/
def Keeps (s : TableLink) : TableCall → Prop
  | .updateTableBuffer tables copy => s.table.versionNum ≠ 0 → s.Publishes tables copy →
      ∀ newest ∈ s.published.head?, ∀ request, newest.Lists request → tables.Lists request
  | .findCacheEntry _ _ => True

def KeepsListed (s : TableLink) : List TableCall → Prop
  | [] => True
  | c :: calls => s.Keeps c ∧ (s.call c).KeepsListed calls

def FreshIn (s : TableLink) (table : CacheAccessTable) : Prop :=
  ∀ request entry, s.Removed request → table.find request ≠ .ok entry

structure Fresh (s : TableLink) : Prop where
  buffer : ∀ newest ∈ s.published.head?, ∃ version written,
    toBuffer newest.caches newest.keys version = .ok written ∧
      ∀ i < written.size, s.remoteBuffer i = written.bytes i
  table : s.table.versionNum ≠ 0 → s.FreshIn s.table

variable {s : TableLink} {transfer : Option GeError} {table : CacheAccessTable}

theorem find_lists {tables : CacheTables} {request : CacheRequest} {entry : CacheEntry}
    (hkeys : ∀ key, table.cacheKeyToCacheId.lookup key = tables.keys.lookup key)
    (hcaches : ∀ id, table.cacheIdToEntry.lookup id =
      (tables.caches.lookup id).map CacheEntry.published)
    (hfind : table.find request = .ok entry) : tables.Lists request := by
  unfold CacheAccessTable.find at hfind
  unfold CacheTables.Lists
  split_ifs at hfind ⊢ with hid
  · cases hlookup : tables.caches.lookup request.cacheId with
    | none => simp [hcaches, hlookup] at hfind
    | some _ => exact HeldResources.mem_of_lookup hlookup
  · cases hlookup : tables.keys.lookup request.key with
    | none => simp [hkeys, hlookup] at hfind
    | some _ => exact HeldResources.mem_of_lookup hlookup

theorem Fresh.sync (hfresh : s.Fresh) (hsync : s.syncFromRemote transfer = (none, table)) :
    s.FreshIn table := by
  rintro request entry ⟨⟨tables, hmem, -⟩, hremoved⟩ hfind
  cases hpublished : s.published with
  | nil => simp [hpublished] at hmem
  | cons newest older =>
    have hnewest : newest ∈ s.published.head? := by rw [hpublished]; rfl
    obtain ⟨version, written, hwrite, hbytes⟩ := hfresh.buffer newest hnewest
    obtain ⟨loaded, hparse, -, hkeys, hcaches⟩ := parseTable_written hwrite hbytes
    cases transfer with
    | some status => cases hsync
    | none =>
      rw [syncFromRemote, CacheAccessTable.loadFromBuffer] at hsync
      obtain hparse | ⟨hparse, -⟩ := hparse <;> rw [hparse] at hsync <;> cases hsync
      exact hremoved newest hnewest (find_lists hkeys hcaches hfind)

theorem Fresh.pull (hfresh : s.Fresh) (hpull : s.firstPull transfer = (none, table)) :
    s.FreshIn table := by
  unfold firstPull at hpull
  split_ifs at hpull with hfirst
  · exact hfresh.sync hpull
  · cases hpull
    exact hfresh.table hfirst

theorem firstPull_error {status : GeError} (hpull : s.firstPull transfer = (some status, table)) :
    table = s.table := by
  unfold firstPull syncFromRemote CacheAccessTable.loadFromBuffer at hpull
  split_ifs at hpull
  · split at hpull
    · cases hpull
      rfl
    · split at hpull <;> cases hpull
      rfl
  · cases hpull

theorem Fresh.findCacheEntry (hfresh : s.Fresh) (request : CacheRequest)
    (transfer : Option GeError) : (s.findCacheEntry request transfer).2.Fresh := by
  unfold TableLink.findCacheEntry
  rcases hpull : s.firstPull transfer with ⟨_ | status, table⟩
  · exact ⟨hfresh.buffer, fun _ => hfresh.pull hpull⟩
  · exact firstPull_error hpull ▸ hfresh

theorem Fresh.updateTableBuffer (hfresh : s.Fresh) {tables : CacheTables} {copy : Option GeError}
    (hkeeps : s.Keeps (.updateTableBuffer tables copy)) :
    (s.updateTableBuffer tables copy).2.Fresh := by
  unfold TableLink.updateTableBuffer
  dsimp only
  split_ifs with hversion
  · exact ⟨hfresh.buffer, hfresh.table⟩
  split
  · exact ⟨hfresh.buffer, hfresh.table⟩
  · exact ⟨hfresh.buffer, hfresh.table⟩
  next buffer hwrite =>
  have hfits : tableSize tables.caches tables.keys ≤ kCacheAccessTableBufferSize := by
    by_contra hlarge
    rw [toBuffer, if_neg hlarge] at hwrite
    cases hwrite
  refine ⟨?_, fun hsynced request entry hremoved => ?_⟩
  · rintro _ ⟨⟩
    exact ⟨_, buffer, hwrite, fun i hlt => if_pos hlt⟩
  · -- What is missing now was missing before, and some table before had listed it.
    have hnow : ¬tables.Lists request := hremoved.2 tables rfl
    obtain ⟨other, hmem, hlists⟩ := hremoved.1
    have hbefore : s.Removed request := by
      refine ⟨⟨other, ?_, hlists⟩, fun newest hnewest h =>
        hnow (hkeeps hsynced ⟨hversion, hfits, rfl⟩ newest hnewest request h)⟩
      exact (List.mem_cons.mp hmem).resolve_left fun heq => hnow (heq ▸ hlists)
    exact hfresh.table hsynced request entry hbefore

theorem Fresh.run (hfresh : s.Fresh) {calls : List TableCall} (hkeeps : s.KeepsListed calls) :
    (s.run calls).Fresh := by
  induction calls generalizing s with
  | nil => exact hfresh
  | cons c calls ih =>
    refine ih ?_ hkeeps.2
    cases c with
    | updateTableBuffer tables copy => exact hfresh.updateTableBuffer hkeeps.1
    | findCacheEntry request transfer => exact hfresh.findCacheEntry request transfer

/-- If nothing was removed after the first pull, then no lookup returns an entry
for a cache or a key that the remote engine had removed before. -/
theorem findCacheEntry_fresh (remoteBuffer : ℕ → UInt8) (calls : List TableCall)
    (hkeeps : ({ remoteBuffer } : TableLink).KeepsListed calls) (request : CacheRequest)
    (transfer : Option GeError) (entry : CacheEntry)
    (hfound : ((({ remoteBuffer } : TableLink).run calls).findCacheEntry request transfer).1 =
      .ok entry) : ¬(({ remoteBuffer } : TableLink).run calls).Removed request := by
  have hstart : ({ remoteBuffer } : TableLink).Fresh := ⟨by simp, fun h => absurd rfl h⟩
  intro hremoved
  unfold TableLink.findCacheEntry at hfound
  rcases hpull : (({ remoteBuffer } : TableLink).run calls).firstPull transfer with ⟨_ | _, table⟩
  · rw [hpull] at hfound
    exact (hstart.run hkeeps).pull hpull request entry hremoved hfound
  · rw [hpull] at hfound
    cases hfound

/-- The only cache of `oneCache`, and no key. -/
def oneTable : CacheTables := ⟨oneCache, ∅⟩

def noTable : CacheTables := ⟨∅, ∅⟩

/-- After the first pull the removal of the cache is not published. -/
theorem findCacheEntry_fresh_refused :
    let calls := [.updateTableBuffer oneTable none, .findCacheEntry ⟨1, 0, 0⟩ none,
      .updateTableBuffer noTable (some (.acl 507899))]
    let s := ({ remoteBuffer := fun _ => 0 } : TableLink).run calls
    (∃ entry, (s.findCacheEntry ⟨1, 0, 0⟩ none).1 = .ok entry) ∧ ¬s.Removed ⟨1, 0, 0⟩ := by
  intro calls s
  have hfound : ((s.findCacheEntry ⟨1, 0, 0⟩ none).1.toOption).isSome := by decide +kernel
  cases hentry : (s.findCacheEntry ⟨1, 0, 0⟩ none).1 with
  | error status => simp [hentry, Except.toOption] at hfound
  | ok entry =>
    refine ⟨⟨entry, rfl⟩, findCacheEntry_fresh _ calls ?_ ⟨1, 0, 0⟩ none entry hentry⟩
    exact ⟨fun h => absurd (by decide +kernel) h, trivial,
      ⟨fun _ hpublishes => (nomatch hpublishes.2.2), trivial⟩⟩

/-- The remote engine removes the cache after the first pull, and the local one
finds it again. -/
theorem findCacheEntry_stale :
    let s := ({ remoteBuffer := fun _ => 0 } : TableLink).run [.updateTableBuffer oneTable none,
      .findCacheEntry ⟨1, 0, 0⟩ none, .updateTableBuffer noTable none]
    s.Removed ⟨1, 0, 0⟩ ∧ (s.findCacheEntry ⟨1, 0, 0⟩ none).1.toOption.isSome := by
  decide +kernel

end TableLink

end Hixl.Llm
