import OcppClient.Lib.Duplex
import OcppClient.Proofs.Agreement

/-!
# The runs of either client of a pair

Whatever is logged of the steps of two clients, the part of the log that one of them wrote is the
log it would have written alone.
-/

namespace OcppClient

open Transition Duplex

variable {E R β : Type} [ProtocolError E] {env : Env R} {draw : Bool → ℕ → Uuid}
  {cfg : Bool → ClientConfig}

/-- The notes of the client that takes the step, under its name. -/
def pairLog (obs : Bool → State E R → Act E → List β) (p : Pair E R) :
    Bool × Act E → List (Bool × β)
  | (x, a) => (obs x (p.side x) a).map fun n => (x, n)

theorem side_of_pairLog {obs : Bool → State E R → Act E → List β}
    {P : Pair E R × List (Bool × β) → Bool × Act E → Prop} {p : Pair E R × List (Bool × β)}
    (h : Machine.Reach ((pair env draw cfg).observed (pairLog obs)) P p) (x : Bool) :
    Machine.Reach ((client (sideEnv env draw x) (cfg x)).observed (obs x)) Machine.Any
      (p.1.side x, sideLog x p.2) := by
  refine h.simulation (N := (client (sideEnv env draw x) (cfg x)).observed (obs x))
    (fun p => (p.1.side x, sideLog x p.2)) rfl fun p ya p' _ _ _ hs => ?_
  obtain ⟨y, a⟩ := ya
  obtain ⟨hs, hl⟩ := Machine.observed_step hs
  obtain ⟨wire, s, -, ht, hp⟩ := pairStep_eq hs
  rw [hp, hl, sideLog_append, pairLog]
  by_cases hy : y = x
  · subst hy
    refine .inr ⟨a, trivial, ?_⟩
    simp only [Machine.observed, client, ht, Option.map_some, Function.update_self, sideLog_self]
  · refine .inl ?_
    rw [sideLog_of_ne hy, List.append_nil]
    simp only [Function.update_of_ne (Ne.symm hy)]

end OcppClient
