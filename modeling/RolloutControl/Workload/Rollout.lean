import RolloutControl.Cache.View
import RolloutControl.Digest.Dependencies
import RolloutControl.Encryption.Convergence
import RolloutControl.Workload.Operand
/-! The deployment of a revision. It carries the digests of all that it mounts, and its pods carry the
revision. A revision mounts its own copy of the encryption configuration, so the label of a pod tells
which configuration it runs with. -/

namespace RolloutControl.Rollout

def proxyKeys : List String := ["HTTP_PROXY", "HTTPS_PROXY", "NO_PROXY"]

def proxyEnv (v : ClusterView) (s : Settings) : List (String × String) :=
  match v.configMap? s.configSpace s.objects.proxyConfig with
  | none => []
  | some cm => proxyKeys.filterMap fun key => (cm.value? key).map (key, ·)

/-- The digests of all that the operand mounts, as it is now. -/
def dependencies (v : ClusterView) (s : Settings) : Dependencies :=
  let ns := s.targetSpace
  let d := s.objects.dependencyConfigMaps.foldl
    (fun (d : Dependencies) name => d.addConfigMap ns name (v.configMap? ns name)) ∅
  s.objects.dependencySecrets.foldl (fun d name => d.addSecret ns name (v.secret? ns name)) d

def recordedDependencies (d : Deployment) : Dependencies :=
  Dependencies.ofAnnotations (d.metadata.annotations.getD ∅)

def selector (s : Settings) : Labels := s.encryption.podSelector.insert "app" s.deploymentName

def snapshotName (s : Settings) (revision : Int) : String :=
  DeployedSource.snapshotName s.encryption (Text.integer revision)

def snapshot? (v : ClusterView) (s : Settings) (revision : Int) : Option Secret :=
  (v.secret? s.targetSpace s.encryption.secretPrefix).map fun source =>
    { metadata :=
        { name := some (snapshotName s revision)
          space := some s.targetSpace
          labels := source.metadata.labels }
      data := source.data
      stringData := source.stringData
      type := source.type }

def configMapFiles (name : String) : Volume × Mount :=
  (⟨name, .configMap name⟩, ⟨name, "/var/run/configmaps/" ++ name⟩)

/-- The encryption configuration is the one that was copied for the revision, and may be missing. -/
def secretFiles (s : Settings) (revision : Int) (name : String) : Volume × Mount :=
  (⟨name, if name = s.encryption.secretPrefix then .secret (snapshotName s revision) true
      else .secret name false⟩,
   ⟨name, "/var/run/secrets/" ++ name⟩)

def files (s : Settings) (revision : Int) : List (Volume × Mount) :=
  s.objects.dependencyConfigMaps.map configMapFiles ++
    s.objects.dependencySecrets.map (secretFiles s revision)

def deployment (s : Settings) (logLevel : LogLevel) (revision : Int) (digests : Dependencies)
    (proxy : List (String × String)) : Deployment where
  metadata :=
    { name := some s.deploymentName
      space := some s.targetSpace
      labels := some (selector s)
      annotations := some digests.toAnnotations }
  spec := some
    { replicas := s.replicas
      selector := selector s
      template :=
        { name := s.deploymentName
          labels := (selector s).insert s.encryption.revisionLabel (Text.integer revision)
          annotations := digests.toAnnotations
          serviceAccount := s.objects.serviceAccount
          image := s.image
          args := ["--config=" ++ Operand.configPath s, "-v=" ++ Text.natural logLevel.verbosity]
          env := proxy
          mounts := (files s revision).map (·.2)
          volumes := (files s revision).map (·.1) } }

end RolloutControl.Rollout
