import StaticRouter.Sweep

/-!
# The times of sweep passes

What the clock readings of the passes of a run have to do with each other, and with the times at which
requests were sent.
-/

namespace StaticRouter

/-- The surroundings of the passes among some inputs. -/
def passes (is : List Input) : List Env :=
  is.filterMap fun
    | .sweep env => some env
    | .frame _ _ _ => none

/-- No reading of the clock is earlier than `t`. -/
def Env.ReadsFrom (t : Int) (env : Env) : Prop := ∀ n, t ≤ env.clock n

/-- The second pass reads the clock at least one second after the first one began. -/
def SecondLater (env env' : Env) : Prop := env'.ReadsFrom (env.clock 0 + 1)

/-- A pass reads no time earlier than those that the requests on the list record. -/
def AfterSent : Input → Router → Prop
  | .frame _ _ _, _ => True
  | .sweep env, s => ∀ r ∈ s.reqList, env.ReadsFrom r.sent

end StaticRouter
