import RolloutControl.Proofs.Status.Ownership
import RolloutControl.Proofs.Workload.Failure
/-! How the controllers treat the operator resource. Whatever a cycle is answered, it reads the resource as it likes,
but writes it by updates only, and these are the updates by which the fields of the status are kept apart. -/

namespace RolloutControl

def Call.IsWrite (c : Call) : Prop := c.IsSpecWrite ∨ c.IsStatusWrite

/-- A program that writes the operator resource by nothing but these updates. -/
inductive Program.Updates (kind : Update → Prop) : {α : Type} → Program α → Prop
  | pure {α : Type} (x : α) : Updates kind (pure x : Program α)
  | ask {c : Call} (h : ¬c.IsWrite) : Updates kind (Program.ask c)
  | update {u : Update} (h : kind u) : Updates kind u.program
  | bind {α β : Type} {p : Program α} {f : α → Program β} (hp : Updates kind p) (hf : ∀ x, Updates kind (f x)) :
    Updates kind (p >>= f)

theorem Program.Updates.of_uses {α : Type} {kind : Update → Prop} {calls : Call → Prop}
    (h : ∀ c, calls c → ¬c.IsWrite) {p : Program α} (hp : p.Uses calls) : p.Updates kind := by
  induction p with
  | done x => exact .pure x
  | call c next ih =>
    have hnext : (Program.ask c >>= next).Updates kind := .bind (.ask (h c hp.1)) fun x => ih x (hp.2 x)
    exact hnext

/-- The next call of the program writes nothing, or it is the first one of an update. -/
theorem Program.Updates.cases_call {α : Type} {kind : Update → Prop} {p : Program α} (h : p.Updates kind) {c : Call}
    {next : c.Answer → Program α} (hp : p = .call c next) :
    (¬c.IsWrite ∧ ∀ x, (next x).Updates kind) ∨
      ∃ (u : Update) (f : u.Result → Program α), kind u ∧ (∀ x, (f x).Updates kind) ∧ p = u.program >>= f := by
  induction h with
  | pure x => cases hp
  | ask hc =>
    cases hp
    exact .inl ⟨hc, fun x => .pure x⟩
  | @update u hu => exact .inr ⟨u, fun x => .done x, hu, fun x => .pure x, (Program.bind_pure _).symm⟩
  | @bind α β q f hq hf ihq ihf =>
    cases q with
    | done x => exact ihf x hp
    | call d rest =>
      cases hp
      rcases ihq rfl with ⟨hd, hrest⟩ | ⟨u, g, hu, hg, hq⟩
      · exact .inl ⟨hd, fun x => .bind (hrest x) hf⟩
      · refine .inr ⟨u, fun x => g x >>= f, hu, fun x => .bind (hg x) hf, ?_⟩
        rw [hq, Program.bind_assoc]

theorem Collaborators.Reading.not_isWrite {c : Call} (h : Collaborators.Reading c) : ¬c.IsWrite := by
  cases c with
  | writeSpec | writeStatus => exact h.elim
  | _ => exact fun hwrite => hwrite.elim id id

theorem Program.Updates.of_reading {α : Type} {kind : Update → Prop} {p : Program α}
    (hp : p.Uses Collaborators.Reading) : p.Updates kind :=
  .of_uses (fun _ => Collaborators.Reading.not_isWrite) hp

namespace Update

def IsBy (s : Settings) (author : Controller) (u : Update) : Prop :=
  u.IsMadeFor s ∧ ∀ c, u.author? = some c → c = author

theorem isBy_status {s : Settings} {author : Controller} {change : Instant → OperatorStatus → OperatorStatus}
    (h : author.Changes s change) : IsBy s author (.status author change) :=
  ⟨h, fun _ hc => (Option.some.inj hc).symm⟩

theorem isBy_observedConfig (s : Settings) (author : Controller) (d : Document) : IsBy s author (.observedConfig d) :=
  ⟨trivial, fun _ hc => nomatch hc⟩

end Update

namespace Workload

variable (s : Settings)

theorem updates_waitForConfig : (waitForConfig s).Updates (Update.IsBy s .workload) := by
  have hchange : Controller.workload.Changes s (await s) := .inl rfl
  have hupdate : (updateStatus (await s)).Updates (Update.IsBy s .workload) := .update (Update.isBy_status hchange)
  rw [waitForConfig_eq]
  refine .bind hupdate fun x => ?_
  cases x <;> exact .pure _

theorem updates_close (operator : OperatorResource) (report : Report) :
    (close s operator report).Updates (Update.IsBy s .workload) := by
  have hchange : Controller.workload.Changes s (report.status s operator) := .inr ⟨report, operator, rfl⟩
  have hupdate : (updateStatus (report.status s operator)).Updates (Update.IsBy s .workload) :=
    .update (Update.isBy_status hchange)
  rw [close_eq]
  exact .bind hupdate fun x => .pure _

theorem updates_rollOut (operator : OperatorResource) (changed : Bool) (recorded : Option Int) :
    (rollOut s operator changed recorded).Updates (Update.IsBy s .workload) := by
  rw [rollOut_eq_execute]
  refine .bind (.ask (Collaborators.Reading.not_isWrite trivial)) fun v => ?_
  refine .of_uses (fun c hc => ?_) (uses_execute s operator recorded _)
  cases c with
  | writeSpec | writeStatus => exact hc.elim
  | _ => exact fun hwrite => hwrite.elim id id

theorem updates_prepare : (prepare s).Updates (Update.IsBy s .workload) := by
  refine .of_uses (fun c hc => ?_) (uses_prepare s)
  rcases hc with hprerequisite | hreading
  · obtain ⟨m, rfl⟩ | ⟨rendered, rfl⟩ := hprerequisite.cases <;> exact fun hwrite => hwrite.elim id id
  · exact hreading.not_isWrite

/-- A cycle of the workload puts its reports into the status, and writes nothing else of the resource. -/
theorem updates_cycle : (cycle s).Updates (Update.IsBy s .workload) := by
  rw [cycle_eq_prepare]
  refine .bind (updates_prepare s) fun p => ?_
  cases p with
  | failed | unmanaged => exact .pure _
  | waiting => exact updates_waitForConfig s
  | ready operator changed errors =>
    refine .bind (updates_rollOut s operator changed _) fun rolled => ?_
    refine .bind (.of_reading (uses_announce s errors rolled)) fun outcome => ?_
    refine .bind (.of_reading (uses_assess s operator outcome)) fun report => ?_
    exact updates_close s operator report

end Workload

namespace Observer

variable {s : Settings}

theorem updates_storeIfNew (existing observed : Document) :
    (storeIfNew existing observed).Updates (Update.IsBy s .observer) := by
  have hpublish (e : Event) : (publish e).Updates (Update.IsBy s .observer) :=
    .ask (Collaborators.Reading.not_isWrite trivial)
  have hupdate : (updateObservedConfig observed).Updates (Update.IsBy s .observer) :=
    .update (Update.isBy_observedConfig s .observer observed)
  unfold storeIfNew
  split
  · exact .pure _
  · refine .bind hupdate fun x => ?_
    rcases x with e | ⟨previous, _ | _⟩
    · exact .bind (hpublish _) fun _ => .pure _
    · exact .pure _
    · exact .bind (hpublish _) fun _ => .pure _

theorem updates_conclude (messages : List String) : (conclude messages).Updates (Update.IsBy s .observer) := by
  have hchange : Controller.observer.Changes s (record messages) := ⟨messages, rfl⟩
  have hupdate : (updateStatus (record messages)).Updates (Update.IsBy s .observer) :=
    .update (Update.isBy_status hchange)
  refine .bind hupdate fun x => ?_
  cases x <;> exact .pure _

/-- A cycle of the config observer stores the document and its condition, and writes nothing else of the resource. -/
theorem updates_cycle (observers : List Observer) (settings : Settings) (order : List Nat) :
    (cycle observers settings order).Updates (Update.IsBy s .observer) := by
  rw [cycle_eq]
  refine .bind (.ask (Collaborators.Reading.not_isWrite trivial)) fun x => ?_
  cases x with
  | error e => exact .pure _
  | ok operator =>
    dsimp only
    split
    · exact .pure _
    · cases Document.ofJson operator.spec.observedConfig with
      | error e => exact .pure _
      | ok existing =>
        refine .bind (.ask (Collaborators.Reading.not_isWrite trivial)) fun v => ?_
        refine .bind (.of_reading (Collaborators.reading_publishAll _)) fun _ => ?_
        exact .bind (updates_storeIfNew existing _) fun failed => updates_conclude _

end Observer

end RolloutControl
