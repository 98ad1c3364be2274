import RolloutControl.Proofs.Decode.Reading
import RolloutControl.Proofs.Time.Spelling
import RolloutControl.Status.Codec
/-! The specification and the status of the operator resource are stored and read without any loss: whatever they hold is read
back from the JSON form, and whatever is read is read again from the form in which it is stored. -/

namespace RolloutControl

open RolloutControl.Tree (Lossless ofJson)

theorem Tree.instant_text {i : Instant} (h : i.Valid) : (ofJson (.str i.text)).instant = pure i := by
  rw [Tree.instant, Tree.string_str, pure_bind, Instant.parse?_text h]

theorem Tree.yields_instant (t : Tree) : Yields t.instant Instant.Valid := by
  refine Tree.yields_any.bind fun s _ => ?_
  split
  · next i hi => exact Tree.yields_pure (Instant.valid_of_parse? hi)
  · exact Tree.yields_throw _

theorem Verdict.ofTree_text (v : Verdict) : Verdict.ofTree (ofJson (.str v.text)) = pure v := by
  cases v <;> rfl

theorem ManagementState.variant_text (m : ManagementState) :
    (ofJson (.str m.text)).variant ManagementState.names = pure m := by
  cases m <;> rfl

theorem LogLevel.variant_text (l : LogLevel) : (ofJson (.str l.text)).variant LogLevel.names = pure l := by
  cases l <;> rfl

namespace Condition

/-- If the condition has ever changed, the time can be spelled. -/
def Valid (c : Condition) : Prop := ∀ i, c.since = some i → i.Valid

def members (c : Condition) : List (String × Option Json) :=
  [("type", some (.str c.type)), ("status", some (.str c.verdict.text))] ++ Json.unlessEmpty "reason" c.reason ++
    Json.unlessEmpty "message" c.message ++ [("lastTransitionTime", c.since.map fun i => .str i.text)]

theorem names_members (c : Condition) :
    c.members.map (·.1) = ["type", "status", "reason", "message", "lastTransitionTime"] := rfl

theorem lossless : Lossless Valid toJson ofTree where
  read_back c hc := by
    obtain ⟨es, hrecord, hes⟩ := Tree.exists_reads c.names_members (by decide) "OperatorCondition"
    have htype := hes.required "type" rfl (Tree.string_str c.type)
    have hverdict := hes.required "status" rfl (Verdict.ofTree_text c.verdict)
    have hreason := hes.unlessEmpty (s := c.reason) "reason" rfl
    have hmessage := hes.unlessEmpty (s := c.message) "message" rfl
    have hsince := hes.field (o := c.since) "lastTransitionTime" rfl fun i hi => Tree.instant_text (hc i hi)
    change ofTree (ofJson (Json.object (Json.present c.members))) = pure c
    simp only [ofTree, hrecord, htype, hverdict, hreason, hmessage, hsince, pure_bind]
  sound t := by
    refine Tree.yields_any.bind fun es _ => ?_
    refine Tree.yields_any.bind fun type _ => ?_
    refine Tree.yields_any.bind fun verdict _ => ?_
    refine Tree.yields_any.bind fun reason _ => ?_
    refine Tree.yields_any.bind fun message _ => ?_
    exact (Tree.yields_field Tree.yields_instant).bind fun since hsince => Tree.yields_pure hsince

end Condition

namespace GenerationRecord

def Valid (r : GenerationRecord) : Prop := Tree.i64.Holds r.lastGeneration

def members (r : GenerationRecord) : List (String × Option Json) :=
  [("group", some (.str r.group)), ("resource", some (.str r.resource)), ("namespace", some (.str r.space)),
    ("name", some (.str r.name)), ("lastGeneration", some (.int r.lastGeneration))] ++ Json.unlessEmpty "hash" r.hash

theorem names_members (r : GenerationRecord) :
    r.members.map (·.1) = ["group", "resource", "namespace", "name", "lastGeneration", "hash"] := rfl

theorem lossless : Lossless Valid toJson ofTree where
  read_back r hr := by
    obtain ⟨es, hrecord, hes⟩ := Tree.exists_reads r.names_members (by decide) "GenerationStatus"
    have hgroup := hes.required "group" rfl (Tree.string_str r.group)
    have hresource := hes.required "resource" rfl (Tree.string_str r.resource)
    have hspace := hes.required "namespace" rfl (Tree.string_str r.space)
    have hname := hes.required "name" rfl (Tree.string_str r.name)
    have hgeneration := hes.required "lastGeneration" rfl (Tree.integer_int hr)
    have hhash := hes.unlessEmpty (s := r.hash) "hash" rfl
    change ofTree (ofJson (Json.object (Json.present r.members))) = pure r
    simp only [ofTree, hrecord, hgroup, hresource, hspace, hname, hgeneration, hhash, pure_bind]
  sound t := by
    refine Tree.yields_any.bind fun es _ => ?_
    refine Tree.yields_any.bind fun group _ => ?_
    refine Tree.yields_any.bind fun resource _ => ?_
    refine Tree.yields_any.bind fun space _ => ?_
    refine Tree.yields_any.bind fun name _ => ?_
    refine (Tree.yields_required (Tree.yields_integer _)).bind fun generation hgeneration => ?_
    exact Tree.yields_any.bind fun hash _ => Tree.yields_pure hgeneration

end GenerationRecord

namespace OperatorSpec

structure Valid (s : OperatorSpec) : Prop where
  observedConfig : s.observedConfig.Canonical
  overrides : s.overrides.Canonical

def members (s : OperatorSpec) : List (String × Option Json) :=
  [("managementState", some (.str s.managementState.text)), ("logLevel", some (.str s.logLevel.text)),
    ("operatorLogLevel", some (.str s.operatorLogLevel.text)), ("observedConfig", some s.observedConfig),
    ("unsupportedConfigOverrides", some s.overrides)]

theorem names_members (s : OperatorSpec) : s.members.map (·.1) = ["managementState", "logLevel",
    "operatorLogLevel", "observedConfig", "unsupportedConfigOverrides"] := rfl

theorem lossless : Lossless Valid toJson ofTree where
  read_back s hs := by
    obtain ⟨es, hrecord, hes⟩ := Tree.exists_reads s.names_members (by decide) "OperatorSpec"
    have hstate := hes.present "managementState" .managed rfl s.managementState.variant_text
    have hlog := hes.present "logLevel" .normal rfl s.logLevel.variant_text
    have hoperatorLog := hes.present "operatorLogLevel" .normal rfl s.operatorLogLevel.variant_text
    have hobserved := hes.present "observedConfig" .null rfl (Tree.json_of_canonical hs.observedConfig)
    have hoverrides := hes.present "unsupportedConfigOverrides" .null rfl (Tree.json_of_canonical hs.overrides)
    change ofTree (ofJson (Json.object (Json.present s.members))) = pure s
    simp only [ofTree, hrecord, hstate, hlog, hoperatorLog, hobserved, hoverrides, pure_bind]
  sound t := by
    refine Tree.yields_any.bind fun es _ => ?_
    refine Tree.yields_any.bind fun managementState _ => ?_
    refine Tree.yields_any.bind fun logLevel _ => ?_
    refine Tree.yields_any.bind fun operatorLogLevel _ => ?_
    refine (Tree.yields_withDefault trivial Tree.yields_json).bind fun observedConfig hobserved => ?_
    refine (Tree.yields_withDefault trivial Tree.yields_json).bind fun overrides hoverrides => ?_
    exact Tree.yields_pure ⟨hobserved, hoverrides⟩

end OperatorSpec

namespace OperatorStatus

/-- Numbers have their widths, and all times can be spelled. -/
structure Valid (s : OperatorStatus) : Prop where
  observedGeneration : Tree.i64.Holds s.observedGeneration
  conditions : ∀ c ∈ s.conditions, c.Valid
  readyReplicas : Tree.i32.Holds s.readyReplicas
  generations : ∀ r ∈ s.generations, r.Valid
  latestRevision : Tree.i64.Holds s.latestRevision

def members (s : OperatorStatus) : List (String × Option Json) :=
  [("observedGeneration", some (.int s.observedGeneration)),
    ("conditions", some (.arr (s.conditions.map Condition.toJson))), ("readyReplicas", some (.int s.readyReplicas)),
    ("generations", some (.arr (s.generations.map GenerationRecord.toJson))),
    ("latestAvailableRevision", some (.int s.latestRevision))]

theorem names_members (s : OperatorStatus) : s.members.map (·.1) = ["observedGeneration", "conditions",
    "readyReplicas", "generations", "latestAvailableRevision"] := rfl

theorem lossless : Lossless Valid toJson ofTree where
  read_back s hs := by
    obtain ⟨es, hrecord, hes⟩ := Tree.exists_reads s.names_members (by decide) "OperatorStatus"
    have hobserved := hes.present "observedGeneration" 0 rfl (Tree.integer_int hs.observedGeneration)
    have hconditions := hes.present "conditions" [] rfl
      (Tree.list_ofJson fun c hc => Condition.lossless.read_back c (hs.conditions c hc))
    have hready := hes.present "readyReplicas" 0 rfl (Tree.integer_int hs.readyReplicas)
    have hgenerations := hes.present "generations" [] rfl
      (Tree.list_ofJson fun r hr => GenerationRecord.lossless.read_back r (hs.generations r hr))
    have hlatest := hes.present "latestAvailableRevision" 0 rfl (Tree.integer_int hs.latestRevision)
    change ofTree (ofJson (Json.object (Json.present s.members))) = pure s
    simp only [ofTree, hrecord, hobserved, hconditions, hready, hgenerations, hlatest, pure_bind]
  sound t := by
    refine Tree.yields_any.bind fun es _ => ?_
    refine (Tree.yields_withDefault (by decide) (Tree.yields_integer _)).bind fun observed hobserved => ?_
    refine (Tree.yields_withDefault (List.forall_mem_nil _) (Tree.yields_list Condition.lossless.sound)).bind
      fun conditions hconditions => ?_
    refine (Tree.yields_withDefault (by decide) (Tree.yields_integer _)).bind fun ready hready => ?_
    refine (Tree.yields_withDefault (List.forall_mem_nil _) (Tree.yields_list GenerationRecord.lossless.sound)).bind
      fun generations hgenerations => ?_
    refine (Tree.yields_withDefault (by decide) (Tree.yields_integer _)).bind fun latest hlatest => ?_
    exact Tree.yields_pure ⟨hobserved, hconditions, hready, hgenerations, hlatest⟩

end OperatorStatus

namespace OperatorResource

/-- A specification or a status is read back from the form in which it is stored. Whatever else is read as one can be
stored as well, and is then read again as it was. -/
theorem stored_without_loss :
    (∀ s : OperatorSpec, s.Valid → s.toJson.decode OperatorSpec.ofTree = .ok s) ∧
      (∀ s : OperatorStatus, s.Valid → s.toJson.decode OperatorStatus.ofTree = .ok s) ∧
      (∀ (j : Json) (s : OperatorSpec), j.decode OperatorSpec.ofTree = .ok s →
        s.Valid ∧ s.toJson.decode OperatorSpec.ofTree = .ok s) ∧
      ∀ (j : Json) (s : OperatorStatus), j.decode OperatorStatus.ofTree = .ok s →
        s.Valid ∧ s.toJson.decode OperatorStatus.ofTree = .ok s := by
  refine ⟨fun s => OperatorSpec.lossless.decode_write, fun s => OperatorStatus.lossless.decode_write, ?_, ?_⟩
  · intro j s hj
    have hvalid := OperatorSpec.lossless.valid_of_decode hj
    exact ⟨hvalid, OperatorSpec.lossless.decode_write hvalid⟩
  · intro j s hj
    have hvalid := OperatorStatus.lossless.valid_of_decode hj
    exact ⟨hvalid, OperatorStatus.lossless.decode_write hvalid⟩

/-- A specification with an observed document and no overrides. -/
def observed : OperatorSpec where
  logLevel := .traceAll
  observedConfig := .obj [("arguments", .obj [("feature-gates", .arr [.str "A=true", .null])]), ("port", .int 6443)]

/-- A status in the middle of a rollout. Some of its conditions have texts and times, and one of its records has a hash. -/
def rollingOut : OperatorStatus where
  observedGeneration := 0x7fffffffffffffff
  conditions :=
    [{ type := "Available", verdict := .holds, since := some ⟨-62135596801, 120000000⟩ },
      { type := "Progressing", verdict := .unknown, reason := "NewRevision", message := "1/3" }]
  readyReplicas := -0x80000000
  generations :=
    [{ group := "apps", resource := "deployments", space := "ns", name := "apiserver", lastGeneration := -1 },
      { group := "", resource := "secrets", space := "ns", name := "key", lastGeneration := 3, hash := "f00d" }]

/-- A status of which most fields are left out, while others are unknown or null. -/
def abridged : Json :=
  .obj [("conditions", .arr [.obj [("lastTransitionTime", .null), ("status", .str "False"), ("type", .str "Degraded")]]),
    ("latestAvailableRevision", .int 7), ("unknown", .bool true)]

def degraded : OperatorStatus where
  conditions := [{ type := "Degraded", verdict := .fails }]
  latestRevision := 7

theorem valid_observed : observed.Valid where
  observedConfig := ⟨by decide, ⟨by decide, ⟨trivial, trivial, trivial⟩, trivial⟩, trivial, trivial⟩
  overrides := trivial

theorem valid_rollingOut : rollingOut.Valid where
  observedGeneration := by decide
  conditions := by
    have htime : Instant.Valid ⟨-62135596801, 120000000⟩ := ⟨by decide, by decide⟩
    simpa [rollingOut, Condition.Valid] using htime
  readyReplicas := by decide
  generations := by
    have hnumbers : Tree.i64.Holds (-1) ∧ Tree.i64.Holds 3 := by decide
    simpa [rollingOut, GenerationRecord.Valid] using hnumbers
  latestRevision := by decide

theorem stored_without_loss_rollingOut :
    (observed.Valid ∧ observed.toJson.decode OperatorSpec.ofTree = .ok observed) ∧
      (rollingOut.Valid ∧ rollingOut.toJson.decode OperatorStatus.ofTree = .ok rollingOut) ∧
      ((Json.obj []).decode OperatorSpec.ofTree = .ok {} ∧
        ({} : OperatorSpec).toJson.decode OperatorSpec.ofTree = .ok {}) ∧
      (abridged.decode OperatorStatus.ofTree = .ok degraded ∧
        degraded.toJson.decode OperatorStatus.ofTree = .ok degraded) := by
  obtain ⟨hspec, hstatus, hspecAgain, hstatusAgain⟩ := stored_without_loss
  have hempty : (Json.obj []).decode OperatorSpec.ofTree = .ok {} := rfl
  have habridged : abridged.decode OperatorStatus.ofTree = .ok degraded := rfl
  exact ⟨⟨valid_observed, hspec observed valid_observed⟩, ⟨valid_rollingOut, hstatus rollingOut valid_rollingOut⟩,
    ⟨hempty, (hspecAgain _ _ hempty).2⟩, ⟨habridged, (hstatusAgain _ _ habridged).2⟩⟩

end OperatorResource

end RolloutControl
