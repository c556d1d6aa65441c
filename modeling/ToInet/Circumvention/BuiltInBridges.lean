import ToInet.Circumvention.Bridge

-- The lists of bridges that come with the app, and the file that updates them.
namespace ToInet.Circumvention

def isNullOrEmpty {α : Type} (list : Option (List α)) : Bool := list.all List.isEmpty

theorem getD_eq_nil_iff {α : Type} {list : Option (List α)} : list.getD [] = [] ↔ isNullOrEmpty list = true := by
  cases list with
  | none => exact iff_of_true rfl rfl
  | some list => exact List.isEmpty_iff.symm

structure BuiltInBridges where
  meek : Option (List Bridge) := none
  obfs4 : Option (List Bridge) := none
  snowflake : Option (List Bridge) := none
  webtunnel : Option (List Bridge) := none
  dnstt : Option (List Bridge) := none

namespace BuiltInBridges

def empty (bridges : BuiltInBridges) : Bool :=
  isNullOrEmpty bridges.meek && isNullOrEmpty bridges.obfs4 && isNullOrEmpty bridges.snowflake &&
    isNullOrEmpty bridges.webtunnel && isNullOrEmpty bridges.dnstt

-- What the asset and the update file decode to, and the instance that is kept.
structure Companion where
  asset : Option BuiltInBridges
  updated : Option BuiltInBridges
  current : Option BuiltInBridges

def isOutdated (now lastModified : Int) : Bool := 2 * 24 * 60 * 60 * 1000 < now - lastModified

namespace Companion

variable (c : Companion)

def getInstance : Companion := { c with current := c.current.or (c.updated.or c.asset) }

def invalidate : Companion := { c with current := none }

def store (bridges : BuiltInBridges) : Companion := { c with updated := some bridges }

-- An assignment behind getInstance(context)?.
def assign (change : BuiltInBridges → BuiltInBridges) : Companion :=
  { c.getInstance with current := c.getInstance.current.map change }

@[simp] theorem getInstance_getInstance : c.getInstance.getInstance = c.getInstance := by
  cases hc : c.current <;> cases hu : c.updated <;> simp [getInstance, hc, hu]

theorem getInstance_assign (change : BuiltInBridges → BuiltInBridges) :
    (c.assign change).getInstance.current = c.getInstance.current.map change := by
  cases hc : c.current <;> cases hu : c.updated <;> cases ha : c.asset <;> simp [assign, getInstance, hc, hu, ha]

end Companion

end BuiltInBridges

end ToInet.Circumvention
