import Specwright.Model.Member

/-!
# Models of method bodies

What a body is found to do: the followed calls, method references and uses of variables, each once,
and for a constructor the fields assigned by the constructor that it delegates to.  Callees are
modelled like other methods, but not their bodies, so bodies reach two levels however deep the real
calls go.
-/

namespace Specwright

variable {m : Type → Type} [Monad m]

/-- The model of a method that a body calls or refers to. -/
def MethodModel.ofCallee
    (scope : Scope) (resolve leaf : TypeRef → m TypeModel) (viewer : Option ClassDecl)
    (declaration : Declaration) : m MethodModel :=
  MethodModel.build scope resolve leaf (pure none) viewer declaration

/-- The model of a use of a variable. -/
def ReferenceModel.build
    (resolve : TypeRef → m TypeModel) (use : VariableUse) : m ReferenceModel := do
  let type ← resolve use.type
  pure { name := use.name, access := use.access, type, owner := use.owner }

namespace Scope

/-- The followed declarations that the call sites of a method resolve to, each with the arguments of
the call. -/
def followedCalls (scope : Scope) (method : MethodDecl) : List (Declaration × List String) :=
  if scope.snapshot.fills .callSites then
    method.callSites.filterMap fun site =>
      (scope.followed? site.target).map fun callee => (callee, site.args)
  else []

/-- The followed declarations that the method references of a method resolve to. -/
def followedRefs (scope : Scope) (method : MethodDecl) : List Declaration :=
  if scope.snapshot.fills .methodReferences then method.methodRefs.filterMap scope.followed?
  else []

/-- The uses of variables in a method. -/
def visibleUses (scope : Scope) (method : MethodDecl) : List VariableUse :=
  if scope.snapshot.fills .references then method.variableUses else []

/-- The fields, as seen from `owner`, that the constructor assigns which a constructor of it
delegates to. -/
def fieldsOfDelegate (scope : Scope) (owner : ClassDecl) (method : MethodDecl) :
    List FieldDeclaration :=
  if method.isConstructor then
    match method.delegatesTo.bind scope.snapshot.resolve? with
    | some target =>
      (scope.snapshot.namesAssignedBy target.owner target.method).filterMap
        (scope.snapshot.findField? owner)
    | none => []
  else []

end Scope

namespace BodyModel

/-- A body in which nothing is found. -/
def empty : BodyModel where
  calls := []
  methodRefs := []
  references := []
  affectedFields := []

/-- The model of the body of a method.  The bodies of root types are not looked into. -/
def build
    (scope : Scope) (resolve leaf : TypeRef → m TypeModel)
    (declaration : Declaration) : m BodyModel := do
  let { owner, method } := declaration
  if isRootClass owner.name then pure empty
  else
    let viewerOf (callee : Declaration) : Option ClassDecl :=
      if owner.language.keepsCalleeContext then some callee.owner else none
    let calls ← (scope.followedCalls method).mapM fun (callee, args) => do
      let callee ← MethodModel.ofCallee scope resolve leaf (viewerOf callee) callee
      pure { callee, args : CallModel }
    let methodRefs ← (scope.followedRefs method).mapM fun target =>
      MethodModel.ofCallee scope resolve leaf (some target.owner) target
    let references ← (scope.visibleUses method).mapM (ReferenceModel.build resolve)
    let affectedFields ←
      (scope.fieldsOfDelegate owner method).mapM (FieldModel.build leaf none)
    pure
      { calls := distinctBy (fun call => (call.callee.id, call.args)) calls
        methodRefs := distinctBy (·.id) methodRefs
        references := distinctBy (fun use => (use.name, use.access, use.owner)) references
        affectedFields }

end BodyModel

end Specwright
