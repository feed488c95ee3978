import OcppClient.Client

/-!
# Two clients

Two clients of one version over a reliable transport that keeps the order: what one hands to its
sink the other receives, once and in order. They differ in their configuration and in the message
ids they draw. Nothing else is assumed of the transport: an operation may take as long as it likes,
or fail after its frame has gone, and pings, pongs and the ends of streams come at any time.
-/

namespace OcppClient

open Transition

variable {E R : Type} [ProtocolError E] (env : Env R) (draw : Bool → ℕ → Uuid)
  (cfg : Bool → ClientConfig)

/-- The environment of one of the clients, which draws its own message ids. -/
def sideEnv (x : Bool) : Env R := { env with newV4 := draw x }

/-- The clients, and the frames on their way to each. -/
structure Pair (E R : Type) where
  side : Bool → State E R
  wire : Bool → List String

/-- What a step hands to the sink. -/
def handedOver (s s' : State E R) : List String :=
  (s'.hist.drop s.hist.length).filterMap Event.sent

/-- What is still on its way once `a` is done; a frame is received only as the first. -/
def deliver (wire : List String) : Act E → Option (List String)
  | .recv (some (.frame f)) =>
    match wire with
    | g :: rest => if f = g then some rest else none
    | [] => none
  | _ => some wire

def pairStep (p : Pair E R) : Bool × Act E → Option (Pair E R)
  | (x, a) =>
    (deliver (p.wire x) a).bind fun wire =>
      (step (sideEnv env draw x) (cfg x) (p.side x) a).map fun s =>
        { side := Function.update p.side x s
          wire := Function.update (Function.update p.wire x wire) (!x)
            (p.wire (!x) ++ handedOver (p.side x) s) }

def pair : Machine (Pair E R) (Bool × Act E) where
  init := ⟨fun x => .new (cfg x), fun _ => []⟩
  step := pairStep env draw cfg

end OcppClient
