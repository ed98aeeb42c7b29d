/-
This file is an AWS account as the broker calls it: a backend on the account,
beside whatever other capacity there is. Each method of the backend is one call,
and the requests it makes are made one after another inside it.
-/
import GpuBroker.Library.Calls
import GpuBroker.Broker.Ec2
import GpuBroker.Broker.Runs

namespace GpuBroker.Broker

open Library

variable {δ : Type}

/-- The capacity behind a broker: an AWS account, and what other capacity there is. -/
structure Fleet (δ : Type) where
  aws : Called Ec2
  rest : δ

namespace Fleet

/-- A call of a backend on the account. -/
def serve {α : Type} (program : Ec2.Aws α) (fleet : Fleet δ) : Except String α × Fleet δ :=
  let answer := fleet.aws.call program
  (answer.1, { fleet with aws := answer.2 })

end Fleet

/-- A backend on the account, as the broker calls it. -/
def Ec2Backend.served (backend : Ec2Backend) (weather : Weather) : Backend (Fleet δ) where
  name := backend.name
  currency := .usd
  tier := some (backend.tier.getD (if backend.spot then "spot" else "ondemand"))
  supports := backend.supports
  freeSlots := fun gpuType => Fleet.serve (backend.freeSlots weather gpuType)
  launch := fun job => Fleet.serve (backend.launch weather job)
  start := fun handle job => Fleet.serve (backend.start weather handle job)
  poll := fun handle => Fleet.serve (backend.poll weather handle)
  fetchLogs := fun handle after => Fleet.serve (backend.fetchLogs weather handle after)
  sampleUtilization := fun handle => Fleet.serve (backend.sampleUtilization weather handle)
  terminate := fun handle reason => Fleet.serve (backend.terminate weather handle reason)

namespace Plant

/-- The world as a process finds it that has just started. -/
def restarted (account : Ec2) (world : World (Fleet δ)) : World (Fleet δ) :=
  { world with cloud := { world.cloud with aws := .fresh account.forget } }

end Plant

end GpuBroker.Broker
