import RolloutControl.Encryption.Convergence
import RolloutControl.Net.Address
import RolloutControl.Observe.Basic
/-! The observers of the operator, one per fact of the cluster. -/

namespace RolloutControl.Observer

def storageUrls : Path := ["storageConfig", "urls"]

/-- The annotation with the address of a member that only runs while the cluster is set up. -/
def bootstrapMark : String := "alpha.installer.openshift.io/etcd-bootstrap"

def etcdUrl (a : Net.Address) : String :=
  match a with
  | .v4 _ _ _ _ => "https://" ++ a.text ++ ":2379"
  | .v6 _ => "https://[" ++ a.text ++ "]:2379"

def members (cm : ConfigMap) : List (String × String) :=
  (cm.data.getD ∅).entries ++
    (((cm.metadata.annotations.getD ∅).get? bootstrapMark).map (bootstrapMark, ·)).toList

def address (name : String) (m : String × String) : Except Error Net.Address :=
  match Net.Address.parse? (Text.trim m.2) with
  | some a => .ok a
  | none => .error (.object (.badAddress name m.1 m.2))

def badAddresses (name : String) (l : List (String × String)) : List Error :=
  l.filterMap fun m =>
    match address name m with
    | .ok _ => none
    | .error e => some e

def goodAddresses (name : String) (l : List (String × String)) : List Net.Address :=
  l.filterMap fun m => (address name m).toOption.filter fun a => !a.isPlaceholder

/-- The endpoints of etcd. One address that cannot be read spoils them all. -/
def etcd : Observer where
  name := "etcd"
  paths := [storageUrls]
  observe facts existing :=
    let name := facts.settings.objects.etcdEndpoints
    match facts.view.configMap? facts.settings.objects.etcdSpace name with
    | none => .keep existing [storageUrls] [] []
    | some cm =>
      let errors := badAddresses name (members cm)
      if !errors.isEmpty then .keep existing [storageUrls] errors []
      else
        match goodAddresses name (members cm) with
        | [] =>
          let e : Error := .object (.noAddresses name)
          .keep existing [storageUrls] [e] [.warning "ObserveStorageFailed" e.message]
        | addresses =>
          let observed := Document.setStrings ∅ storageUrls (ascending (addresses.map etcdUrl))
          { config := observed
            events := changeEvents "ObserveStorageUpdated" existing observed storageUrls }

def internalRegistry : Path := ["imagePolicyConfig", "internalRegistryHostname"]

def externalRegistries : Path := ["imagePolicyConfig", "externalRegistryHostnames"]

/-- The names in a list that is written with commas or on lines. -/
def hostnames (text : String) : List String :=
  ((Text.splitOn (fun c => c == ',' || c == '\n') text).map Text.trim).filter (· ≠ "")

def images : Observer where
  name := "images"
  paths := [internalRegistry, externalRegistries]
  observe facts existing :=
    let s := facts.settings
    match facts.view.configMap? s.configSpace s.objects.imageConfig with
    | none => .keep existing [internalRegistry, externalRegistries] [] []
    | some cm =>
      let observed : Document := match cm.value? "internalRegistryHostname" with
        | some v => Document.set ∅ internalRegistry (.str v)
        | none => ∅
      let observed := match ((cm.value? "externalRegistryHostnames").map hostnames).getD [] with
        | [] => observed
        | l => observed.setStrings externalRegistries l
      { config := observed
        events :=
          changeEvents "ObserveInternalRegistryHostnameChanged" existing observed internalRegistry ++
            changeEvents "ObserveExternalRegistryHostnameChanged" existing observed externalRegistries }

def subdomain : Path := ["routingConfig", "subdomain"]

def ingress : Observer where
  name := "ingress"
  paths := [subdomain]
  observe facts existing :=
    let s := facts.settings
    match facts.view.configMap? s.configSpace s.objects.ingressConfig with
    | none => .keep existing [subdomain] [] []
    | some cm =>
      match cm.value? "domain" with
      | none =>
        let e : Error := .object (.noDomain s.objects.ingressConfig)
        .keep existing [subdomain] [e] [.warning "ObserveRoutingConfigFailed" e.message]
      | some domain =>
        let observed := Document.set ∅ subdomain (.str domain)
        { config := observed
          events := changeEvents "RoutingConfigSubdomainChanged" existing observed subdomain }

def requestMessage : Path := ["projectConfig", "projectRequestMessage"]

def requestTemplate : Path := ["projectConfig", "projectRequestTemplate"]

/-- What people see who ask for a project, and what they get. Templates live with the settings. -/
def project : Observer where
  name := "project"
  paths := [requestMessage, requestTemplate]
  observe facts existing :=
    let s := facts.settings
    match facts.view.configMap? s.configSpace s.objects.projectConfig with
    | none => .keep existing [requestMessage, requestTemplate] [] []
    | some cm =>
      let observed : Document := match cm.value? "projectRequestMessage" with
        | some v => Document.set ∅ requestMessage (.str v)
        | none => ∅
      let observed := match cm.value? "projectRequestTemplate" with
        | some v => observed.set requestTemplate (.str (s.configSpace ++ "/" ++ v))
        | none => observed
      { config := observed
        events :=
          changeEvents "ObserveProjectRequestMessageChanged" existing observed requestMessage ++
            changeEvents "ObserveProjectRequestTemplateChanged" existing observed requestTemplate }

def providerConfig : Path := ["apiServerArguments", "encryption-provider-config"]

/-- Whether the operand encrypts, once all sources agree on it. Until then the setting stays. -/
def encryption (sources : Facts → List DeployedSource) : Observer where
  name := "encryption"
  paths := [providerConfig]
  observe facts existing :=
    let seen (observed : Document) : Observation :=
      { config := observed
        events := changeEvents "EncryptionConfigChanged" existing observed providerConfig }
    match DeployedSource.evaluate (sources facts) with
    | .ok (.settled (some _)) =>
      seen (Document.setStrings ∅ providerConfig [facts.settings.encryption.providerConfigPath])
    | .ok (.settled none) => seen ∅
    | .ok .unsettled => .keep existing [providerConfig] [] []
    | .error e => .keep existing [providerConfig] [e] []

def builtInOver (sources : Facts → List DeployedSource) : List Observer :=
  [etcd, images, ingress, project, encryption sources]

/-- All observers; encryption follows the replicas that run. -/
def builtIn : List Observer :=
  builtInOver fun facts => [.ofReplicas facts.view facts.settings.encryption]

end RolloutControl.Observer
