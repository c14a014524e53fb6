import Hixl.CacheManagerModel

/-!
# What a call of the cache manager changes

A call that fails before the table is updated leaves the maps as they were.
When the update fails the maps have already changed, unless the call has entered
again what was registered.
-/

namespace Hixl.Llm

def CacheCall.copy : CacheCall → Option GeError
  | .allocate _ copy _ _ _ | .registerCacheEntry copy _ _ _ _ _ | .unregisterCacheEntry copy _
  | .deallocate copy _ | .removeCacheKey copy _ _ _ => copy

namespace CacheManager

variable {m edited : CacheManager} {copy : Option GeError} {id : Int64}

def smallPool : PoolAnswers where
  tensorSize := .ok 8
  allocShared i := some (.ofNat (64 * i))

end CacheManager

end Hixl.Llm
