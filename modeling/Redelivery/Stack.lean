import Redelivery.Layer

/-!
# Stacks of layers

A layer is itself a port, so layers can be put around each other.

Main definitions:

* `Stack.port`: a port inside layers with given settings, the outermost first.
* `Stack.stats`: a look at each layer, the innermost first.
* `Stack.base`, `Stack.update`: the state of the port inside.
-/

namespace Redelivery
namespace Stack

/-- A port inside layers with given settings, the outermost first. -/
def port (P : Port) : List Settings → Port
  | [] => P
  | settings :: inner => Layer.port settings (port P inner)

variable {P : Port}

/-- A stack around a port in a given state; each layer gets a scope to begin with. -/
def new (s : P.State) : (layers : List Settings) → Ambient → (port P layers).State × Ambient
  | [], a => (s, a)
  | _ :: inner, a =>
      let (state, a) := new s inner a
      let (interrupt, a) := a.freshScope
      (Layer.new state interrupt, a)

/-- A look at each layer, the innermost first. -/
def stats : (layers : List Settings) → (port P layers).State → List Stats
  | [], _ => []
  | _ :: inner, (layer : Layer (port P inner)) => stats inner layer.inner ++ [layer.stats]

/-- The state of the port inside. -/
def base : (layers : List Settings) → (port P layers).State → P.State
  | [], s => s
  | _ :: inner, (layer : Layer (port P inner)) => base inner layer.inner

/-- Changes the state of the port inside. -/
def update (f : P.State → P.State) :
    (layers : List Settings) → (port P layers).State → (port P layers).State
  | [], s => f s
  | _ :: inner, (layer : Layer (port P inner)) =>
      { layer with inner := update f inner layer.inner : Layer (port P inner) }

end Stack
end Redelivery
