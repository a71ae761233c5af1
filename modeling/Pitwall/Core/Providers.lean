import Pitwall.Library.Table
set_option autoImplicit false

/-!
Rows of `pitwall.providers` and `pitwall.capabilities`, as far as the ledgers and the
reconciler read them. No foreign key ties a workload to either.
-/

namespace Pitwall

inductive ProviderType where
  | serverlessQueue | serverlessLb | publicEndpoint | podLease
  deriving DecidableEq, Repr

def ProviderType.value : ProviderType → String
  | .serverlessQueue => "serverless_queue"
  | .serverlessLb => "serverless_lb"
  | .publicEndpoint => "public_endpoint"
  | .podLease => "pod_lease"

structure Provider where
  id : String
  name : String
  providerType : ProviderType
  runpodEndpointId : Option String
  deriving DecidableEq

abbrev Providers := Keyed Provider.id

structure Capability where
  id : String
  /-- The column `class`. -/
  capabilityClass : String
  deriving DecidableEq

abbrev Capabilities := Keyed Capability.id

end Pitwall
