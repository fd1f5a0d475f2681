import Meemee.Library.Table

/-!
# Plans and their limits

`meemee/entitlements.py`: a principal has the plan it was assigned, else the default one, and
a plan has a limit for each resource.
-/
namespace Meemee.Source.Entitlements
open Library

/-- The names in `PLANS`. -/
inductive Plan where
  | starter | team | business
  deriving DecidableEq, Repr

inductive Resource where
  | dailyJobs | webhooks | persistentApprovals
  deriving DecidableEq, Repr

/-- `PLANS[plan][resource]`. -/
def Plan.limit : Plan → Resource → Nat
  | .starter, .dailyJobs => 100
  | .starter, .webhooks => 3
  | .starter, .persistentApprovals => 10
  | .team, .dailyJobs => 1000
  | .team, .webhooks => 25
  | .team, .persistentApprovals => 100
  | .business, .dailyJobs => 10000
  | .business, .webhooks => 250
  | .business, .persistentApprovals => 1000

/-- A row of `principal_plans`. `assign` stores no other plan. -/
structure Assignment where
  principal : String
  plan : Plan
  deriving DecidableEq, Repr

structure EntitlementStore where
  assigned : Table Assignment.principal
  defaultPlan : Plan

def EntitlementStore.planName (s : EntitlementStore) (principal : String) : Plan :=
  match s.assigned.find principal with
  | some row => row.plan
  | none => s.defaultPlan

def EntitlementStore.limit (s : EntitlementStore) (principal : String) (resource : Resource) : Nat :=
  (s.planName principal).limit resource

def EntitlementStore.allows (s : EntitlementStore) (principal : String) (resource : Resource)
    (current : Nat) : Bool := decide (current < s.limit principal resource)

end Meemee.Source.Entitlements
