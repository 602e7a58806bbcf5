import AssetAccess.Decision.Evaluate
import AssetAccess.Formula.References
import AssetAccess.Rule.Basic
set_option autoImplicit false

/-!
# Decisions

A request names a right and a target.  It is granted if one of the rules that allow the
right on the target has a formula that holds; rules that deny are of no effect.  A
request without a subject is refused before any rule is looked at.
-/

namespace AssetAccess

namespace Rule

/-- The rule applies to a target: it names exactly one, which is the same route, the same
identifiable, or every identifiable. -/
def appliesTo (r : Rule) (target : Target) : Bool :=
  match r.targets with
  | [.route path] =>
    match target with
    | .route wanted => decide (path = wanted)
    | _ => false
  | [.identifiable id] =>
    match target with
    | .identifiable wanted => decide (id = Target.anyIdentifiable) || decide (id = wanted)
    | _ => false
  | _ => false

/-- The attributes that are resolved for the rule: the declared ones and those its formula
refers to. -/
def attributes (r : Rule) : List Attribute := r.acl.attributes ++ r.formula.attributes

/-- The formula of the rule holds for a subject at a time. -/
def holds (r : Rule) (claims : Claims) (clock : Clock) (target : TargetAttributes) : Bool :=
  r.formula.holds ⟨target, Resolved.ofAttributes claims clock r.attributes⟩

end Rule

/-- The rules that grant a right on a target with an access. -/
def applicable (rules : List Rule) (right : Right) (access : Access) (target : Target) :
    List Rule :=
  (rules.filter fun r => decide (r.acl.access = access) && r.acl.rights.grants right).filter
    fun r => r.appliesTo target

/-- What a decision is about. -/
structure Request where
  right : Right
  target : Target
  /-- what is known of the target -/
  targetAttributes : TargetAttributes

namespace Request

/-- Why a request has no decision. -/
inductive Refusal where
  /-- the request carries no subject -/
  | noSubject
  /-- the date in UTC is after the last one of the calendar -/
  | utcDateUnsupported
  deriving DecidableEq

/-- The wording of a refusal. -/
def Refusal.message : Refusal → String
  | .noSubject => "no subject information available"
  | .utcDateUnsupported => "local datetime out of valid range"

/-- The rules that may grant the request. -/
def candidates (q : Request) (rules : List Rule) : List Rule :=
  applicable rules q.right .allow q.target

/-- The request is granted to a subject at a time. -/
def grantedTo (q : Request) (rules : List Rule) (claims : Claims) (clock : Clock) : Bool :=
  (q.candidates rules).any fun r => r.holds claims clock q.targetAttributes

/-- The decision on a request, for the claims of its subject. -/
def decide (q : Request) (rules : List Rule) (subject : Option Claims) (clock : Clock) :
    Except Refusal Bool :=
  match subject with
  | none => .error .noSubject
  | some claims => .ok (q.grantedTo rules claims clock)

/-- The rules that are evaluated for a request: the candidates up to the first that holds. -/
def evaluated (q : Request) (claims : Claims) (clock : Clock) : List Rule → List Rule
  | [] => []
  | r :: rs =>
    if r.holds claims clock q.targetAttributes then [r] else r :: evaluated q claims clock rs

/-- The decision at an instant.  Where its UTC date is after the last one of the calendar, a
rule that asks for the time in UTC cannot be evaluated. -/
def decideAt (q : Request) (rules : List Rule) (subject : Option Claims) (now : Timestamp) :
    Except Refusal Bool :=
  let clock := Clock.ofTimestamp now
  match subject with
  | none => .error .noSubject
  | some claims =>
    if !now.utcDateSupported &&
        (q.evaluated claims clock (q.candidates rules)).any fun r =>
          r.attributes.contains (.global .utcNow) then
      .error .utcDateUnsupported
    else q.decide rules (some claims) clock

end Request

end AssetAccess
