import RolloutControl.Cache.View
/-! Whether the API that the operand serves is available: every group version has to be registered,
and then discovery has to answer for each of them. -/

namespace RolloutControl

structure Unavailable where
  reason : String
  message : String
deriving DecidableEq, Repr

namespace Unavailable

def ofProblems (reason : String) (problems : List String) : Option Unavailable :=
  if problems.isEmpty then none else some ⟨reason, joinLines problems⟩

end Unavailable

/-- The name of the registration of a group version: the version, then the group. -/
def apiServiceName? (groupVersion : String) : Option String :=
  (groupVersion? groupVersion).map fun (group, version) => version ++ "." ++ group

def registrationProblem? (services : Cache ApiService) (groupVersion : String) : Option String :=
  match apiServiceName? groupVersion with
  | none => some (Text.quoted groupVersion ++ " is not a group version")
  | some name =>
    let service := "apiservices.apiregistration.k8s.io/" ++ name
    match Cache.find? services ⟨name, none⟩ with
    | none => some (service ++ ": not present")
    | some s =>
      match s.conditions.find? fun c => c.type = "Available" with
      | none => some (service ++ ": no Available condition yet")
      | some c =>
        if c.status = "True" then none
        else some (service ++ ": not available: " ++ c.message.getD "")

def checkRegistrations (services : Cache ApiService) (groupVersions : List String) : Option Unavailable :=
  Unavailable.ofProblems "APIServicesNotAvailable" (groupVersions.filterMap (registrationProblem? services))

def checkDiscovery (answers : List (String × Except Error Unit)) : Option Unavailable :=
  Unavailable.ofProblems "APIServicesDiscoveryFailed" (answers.filterMap fun e =>
    match e.2 with
    | .ok () => none
    | .error err => some (e.1 ++ ": " ++ err.message))

end RolloutControl
