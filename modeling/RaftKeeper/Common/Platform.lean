import RaftKeeper.Common.Path
import RaftKeeper.Lib.Enumeration

/-!
# What the store takes from outside

`Platform` is fixed when the server is built: the switch `COMPATIBLE_MODE_ZOOKEEPER` and three
library functions. `Environment` may differ from call to call: the wall clock and the iteration
order of each hash table.
-/

namespace RaftKeeper

/-- The build and the libraries that the server relies on. -/
structure Platform where
  compatibleModeZookeeper : Bool
  getSHA1 : Bytes → Bytes
  base64Encode : Bytes → Bytes
  /-- `std::hash<String>`, which places a path in one of the buckets of the data tree. -/
  hash : Bytes → ℕ

/-- `generateDigest`: the user name, a colon and the encoded hash of the whole string. -/
def Platform.generateDigest (platform : Platform) (userdata : Bytes) : Bytes :=
  userdata.takeWhile (· ≠ 58) ++ 58 :: platform.base64Encode (platform.getSHA1 userdata)

/-- What a call of the store reads besides its arguments: the clock and the orders in which hash
tables are walked. -/
structure Environment where
  now : Int64
  watchers : Enumeration Bytes Int64
  watchedPaths : Enumeration Int64 Bytes
  ephemeralPaths : Enumeration Int64 Bytes

def bytesKey : Bytes → ℕ
  | [] => 0
  | byte :: rest => bytesKey rest * 257 + byte.toNat + 1

theorem bytesKey_injective : Function.Injective bytesKey := by
  intro left
  induction left with
  | nil =>
    intro right same
    cases right with
    | nil => rfl
    | cons byte rest => simp [bytesKey] at same
  | cons byte rest ih =>
    intro right same
    cases right with
    | nil => simp [bytesKey] at same
    | cons other others =>
      have bound := byte.toNat_lt
      have otherBound := other.toNat_lt
      simp only [bytesKey] at same
      have sameByte : byte = other := UInt8.toNat_inj.mp (by omega)
      have sameRest : bytesKey rest = bytesKey others := by omega
      rw [sameByte, ih sameRest]

def sessionKey (session : Int64) : ℕ := session.toUInt64.toNat

theorem sessionKey_injective : Function.Injective sessionKey := by
  rintro ⟨left⟩ ⟨right⟩ same
  exact congrArg Int64.ofUInt64 (UInt64.toNat_inj.mp same)

/-- The clock stands still and every hash table is walked in the order of its keys. -/
def Environment.sorted : Environment where
  now := 0
  watchers := .sortedBy sessionKey sessionKey_injective
  watchedPaths := .sortedBy bytesKey bytesKey_injective
  ephemeralPaths := .sortedBy bytesKey bytesKey_injective

def Platform.sample : Platform where
  compatibleModeZookeeper := true
  getSHA1 := id
  base64Encode := id
  hash := List.length

end RaftKeeper
