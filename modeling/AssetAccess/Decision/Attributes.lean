import AssetAccess.Calendar.Clock
import AssetAccess.Decision.Claims
import AssetAccess.Formula.Basic
set_option autoImplicit false

/-!
# Resolved attributes

Before a formula is evaluated, the attributes that it may ask for are resolved once,
against the claims of the subject and the clock.  What cannot be resolved is left out.
-/

namespace AssetAccess

/-- The attributes known for one evaluation. -/
structure Resolved where
  claims : List (String × ClaimValue)
  globals : List (Global × TimeOfDay)
  deriving DecidableEq

namespace Resolved

/-- Nothing is known. -/
def empty : Resolved := ⟨[], []⟩

/-- The value of a claim. -/
def claim? (r : Resolved) (path : String) : Option ClaimValue := Table.first? path r.claims

/-- The time of day of a global attribute. -/
def global? (r : Resolved) (g : Global) : Option TimeOfDay :=
  (r.globals.find? fun e => decide (e.1 = g)).map fun e => e.2

/-- A claim gets a value, whatever it was before. -/
def withClaim (r : Resolved) (path : String) (v : ClaimValue) : Resolved :=
  ⟨(path, v) :: r.claims, r.globals⟩

/-- A global attribute gets a time, whatever it was before. -/
def withGlobal (r : Resolved) (g : Global) (t : TimeOfDay) : Resolved :=
  ⟨r.claims, (g, t) :: r.globals⟩

/-- One more attribute is resolved.  A claim that is known already is not looked up again;
the subject's own time and anonymity, and references, are not supported. -/
def add (claims : Claims) (clock : Clock) (r : Resolved) : Attribute → Resolved
  | .claim path =>
    match r.claim? path with
    | some _ => r
    | none =>
      match claims.lookup? path with
      | some v => r.withClaim path v
      | none => r
  | .global .utcNow => r.withGlobal .utcNow clock.utcTime
  | .global .localNow => r.withGlobal .localNow clock.localTime
  | .global .clientNow => r
  | .global .anonymous => r
  | .reference _ => r

/-- The attributes of a list, resolved in order. -/
def ofAttributes (claims : Claims) (clock : Clock) (attributes : List Attribute) : Resolved :=
  attributes.foldl (add claims clock) empty

end Resolved

end AssetAccess
