import RfcMcp.Runtime.State

namespace RfcMcp

open Framework

namespace TTLCache

def get (id : CacheId) (key : String) : Act (Option id.Value) :=
  withLock (.cache id) (perform (.cacheGet id key))

def set (id : CacheId) (key : String) (value : id.Value) : Act Unit :=
  withLock (.cache id) (perform (.cacheSet id key value))

def getOrSet (id : CacheId) (key : String) (factory : Act id.Value) : Act id.Value := do
  let cached ← get id key
  match cached with
  | some value => pure value
  | none => do
    let value ← factory
    set id key value
    pure value

end TTLCache

end RfcMcp
