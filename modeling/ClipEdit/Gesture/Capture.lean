/-!
# Pointer capture

During a gesture the pointer must be followed even when it leaves the overlay. The host does so
while it is *attached*. A session attaches when a gesture begins and detaches when it ends; what
that means is up to the type that stands for the host.

* `Unit` — a host that follows the pointer anyway;
* `CaptureCount` — counts both kinds of calls;
* `CaptureLog` — keeps the calls in order.
-/

namespace ClipEdit

/-- Hosts that can be told to follow the pointer and to stop following it. -/
class PointerCapture (C : Type) where
  attach : C → C
  detach : C → C

instance : PointerCapture Unit where
  attach := id
  detach := id

/-- How often a host was attached and detached. -/
structure CaptureCount where
  attached : Nat
  detached : Nat
deriving Repr, DecidableEq

instance : PointerCapture CaptureCount where
  attach c := { c with attached := c.attached + 1 }
  detach c := { c with detached := c.detached + 1 }

/-- A call to a host. -/
inductive CaptureCall where
  | attach
  | detach
deriving Repr, DecidableEq

/-- The calls to a host, oldest first. -/
structure CaptureLog where
  calls : List CaptureCall
deriving Repr, DecidableEq

instance : PointerCapture CaptureLog where
  attach c := ⟨c.calls ++ [.attach]⟩
  detach c := ⟨c.calls ++ [.detach]⟩

end ClipEdit
