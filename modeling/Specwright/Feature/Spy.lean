import Specwright.Model.Basic

/-!
# Spies

Calls that a tested method makes to its own class can be answered by a spy around the instance
under test.  A spy reaches neither private nor static methods nor constructors, and the tested
method itself has to run for real.
-/

namespace Specwright

namespace MethodModel

/-- Whether a method calls another one directly. -/
def callsDirectly (method callee : MethodModel) : Bool :=
  method.spyCalls.any (·.callee.id = callee.id)

/-- Whether a spy can answer for a method while another one is tested. -/
def canBeSpiedIn (candidate method : MethodModel) : Bool :=
  candidate.id ≠ method.id && !candidate.traits.isPrivate && !candidate.traits.isStatic &&
    !candidate.traits.isConstructor

/-- The callees that a spy answers for while the method is tested, in the order of the calls. -/
def spiedCallees (spySelfCalls : Bool) (method : MethodModel) : List MethodModel :=
  if !spySelfCalls || method.traits.isStatic then []
  else method.siblingCallees.filter (·.canBeSpiedIn method)

end MethodModel

end Specwright
