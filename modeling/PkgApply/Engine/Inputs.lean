import PkgApply.Engine.Journaled
import PkgApply.Closure

/-!
# Which requests can be prepared

Captures, payloads and schedule are prepared before anything is observed.  Of
all the ways this can fail, a request leaves two: an old object is to be kept
where the plan found none, and the active effects depend on each other in a
cycle.
-/

namespace PkgApply

open Library.Ordering

/-! ## Captures -/

section Captures

variable {plan : OperationPlan} {control : ExecutionControl} {d : PathDecision} {e : Exn}

/-- Wherever an old object is to be kept, the plan found one. -/
def OperationPlan.StagesPresent (plan : OperationPlan) : Prop :=
  ∀ d ∈ plan.paths, d.rejected = .stageOld → ∀ before, plan.precondition d.path = some before →
    before.isPresent = true

/-- The message of a missing old object. -/
def absentOldObject : Exn :=
  .invalidArgument "old-object staging requires a present planning observation"

/-- A capture fails only for a missing old object. -/
private theorem captureRequest_cases (control : ExecutionControl) {before : PathPrecondition}
    (hbefore : plan.precondition d.path = some before) :
    (captureRequest plan control d = .error absentOldObject ∧ d.rejected = .stageOld ∧
      before.isPresent = false) ∨
    ((∃ capture, captureRequest plan control d = .ok capture) ∧
      (d.rejected = .stageOld → before.isPresent = true)) := by
  unfold captureRequest
  simp only [hbefore]
  by_cases hmissing : (d.rejected == .stageOld && !before.isPresent) = true
  · rw [refuseIf_bind_of hmissing]
    simp only [Bool.and_eq_true, beq_iff_eq, Bool.not_eq_true'] at hmissing
    exact .inl ⟨rfl, hmissing⟩
  · rw [refuseIf_bind_of_not hmissing]
    refine .inr ⟨?_, ?_⟩
    · split
      · exact ⟨_, rfl⟩
      · exact ⟨_, rfl⟩
    · intro hstage
      simpa [hstage] using hmissing

/-- Captures exist exactly where every old object to be kept was there. -/
theorem prepareOldObjectCaptures_ok_iff (control : ExecutionControl) :
    (∃ captures, prepareOldObjectCaptures plan control = .ok captures) ↔ plan.StagesPresent := by
  constructor
  · rintro ⟨captures, h⟩ d hd hstage before hbefore
    obtain ⟨capture, hok⟩ := collect_each h d hd
    rcases captureRequest_cases control hbefore with ⟨herror, -⟩ | ⟨-, hpresent⟩
    · rw [hok] at herror
      cases herror
    · exact hpresent hstage
  · intro h
    refine collect_ok fun d hd => ?_
    obtain ⟨before, hbefore⟩ := OperationPlan.precondition_of_mem hd
    rcases captureRequest_cases control hbefore with ⟨-, hstage, habsent⟩ | ⟨hok, -⟩
    · rw [h d hd hstage before hbefore] at habsent
      cases habsent
    · exact hok

theorem prepareOldObjectCaptures_error (h : prepareOldObjectCaptures plan control = .error e) :
    e = absentOldObject := by
  obtain ⟨d, hd, herror⟩ := collect_error h
  obtain ⟨before, hbefore⟩ := OperationPlan.precondition_of_mem hd
  rcases captureRequest_cases control hbefore with ⟨habsent, -⟩ | ⟨⟨capture, hok⟩, -⟩
  · rw [herror] at habsent
    exact Except.error.inj habsent
  · rw [hok] at herror
    cases herror

end Captures

namespace ApplicationRequest

variable {request : ApplicationRequest} {d : PathDecision} {id : EntryId}

/-! ## Payloads -/

/-- A decision with an incoming entry belongs to a request with an image. -/
theorem image_of_incoming (hd : d ∈ request.plan.paths) (hid : d.incomingEntry = some id) :
    ∃ image, request.image = some image := by
  refine Option.isSome_iff_exists.mp (request.image_iff.mpr fun hremove => ?_)
  have hrole := request.plan.removal_roles hremove d hd
  have hincoming := d.incoming_role.mpr (by rw [hid]; rfl)
  rw [hrole] at hincoming
  cases hincoming

/-- What an effect consumes is in the image. -/
theorem resolves {image : PackageImage} (himage : request.image = some image)
    (hd : d ∈ request.plan.paths) (hid : d.incomingEntry = some id) :
    ∃ entry, d.Resolves image entry := by
  obtain ⟨entry, hentry, hpath⟩ := request.entries_resolve image himage d hd id hid
  have hsame := PackageImage.id_of_entry hentry
  exact ⟨entry, by rw [hid, hsame], by rw [hsame, hentry], hpath⟩

/-- A decision that consumes an entry names one. -/
private theorem incoming_of_consumes (h : d.consumesIncoming = true) :
    ∃ id, d.incomingEntry = some id := by
  unfold PathDecision.consumesIncoming at h
  rw [Bool.or_eq_true, beq_iff_eq, beq_iff_eq] at h
  rcases h with hactive | hrejected
  · exact Option.isSome_iff_exists.mp (d.activates_incoming hactive)
  · obtain ⟨object, -, -, houtcome, hentry⟩ := d.rejects (by rw [hrejected]; decide)
    rw [← hentry]
    rw [hrejected] at houtcome
    unfold RejectedObjectPlan.outcome at houtcome
    unfold RejectedObjectPlan.incomingEntry
    cases hsource : object.source with
    | incoming entry => exact ⟨entry, rfl⟩
    | oldInstalled => simp [hsource] at houtcome

/-- The payload closure of a request exists. -/
theorem requestPayloads_ok (request : ApplicationRequest) :
    ∃ payloads, requestPayloads request = .ok payloads := by
  unfold requestPayloads
  cases himage : request.image with
  | none => exact ⟨none, rfl⟩
  | some image =>
    have hall : ∀ d ∈ request.plan.paths, ∃ value, payloadRequirement image d = .ok value := by
      intro d hd
      cases hconsumes : d.consumesIncoming with
      | false => exact ⟨none, payloadRequirement_of_not hconsumes⟩
      | true =>
        obtain ⟨id, hid⟩ := incoming_of_consumes hconsumes
        obtain ⟨entry, hresolves⟩ := resolves himage hd hid
        obtain ⟨payload, -, hrequirement⟩ := payloadRequirement_of_resolves hconsumes hresolves
        exact ⟨_, hrequirement⟩
    obtain ⟨requirements, hcollect⟩ := collect_ok hall
    have hprepare : ∃ payloads, prepareIncomingPayloads request.plan image = .ok payloads :=
      ⟨_, bind_eq_ok_iff.mpr ⟨requirements, hcollect, rfl⟩⟩
    obtain ⟨payloads, hpayloads⟩ := hprepare
    exact ⟨some payloads, bind_eq_ok_iff.mpr ⟨payloads, hpayloads, rfl⟩⟩

/-- Whatever is selected is staged. -/
theorem payloadSteps_ok {payloads : Option IncomingPayloadPlan}
    (h : requestPayloads request = .ok payloads) :
    ∃ steps, payloadSteps request.image payloads = .ok steps := by
  unfold requestPayloads at h
  cases himage : request.image with
  | none =>
    rw [himage] at h
    cases h
    exact ⟨[], rfl⟩
  | some image =>
    rw [himage] at h
    obtain ⟨prepared, hprepare, hsome⟩ := bind_eq_ok_iff.mp h
    cases hsome
    obtain ⟨-, hidentity, hselection⟩ := prepareIncomingPayloads_eq_ok hprepare
    simp only [payloadSteps, ne_eq, hidentity, not_true_eq_false, if_false, ← hselection]
    refine collect_ok fun id hid => ?_
    obtain ⟨source, hsource, rfl, d, -, -, entry, -, hregular, -⟩ :=
      (mem_selection hprepare id).mp hid
    unfold stagingStep
    simp only [PackageImage.entry_of_mem hsource, hregular]
    exact ⟨_, rfl⟩

/-! ## Active effects -/

/-- The active nodes of a request. -/
def activeNodes (request : ApplicationRequest) : Set ActiveNode :=
  {node | ∃ d ∈ request.plan.paths, activeNode request.image d = .ok (some node)}

/-- Every decision gives a node or needs none. -/
theorem collect_activeNode_ok (request : ApplicationRequest) :
    ∃ nodes, collect (activeNode request.image) request.plan.paths = .ok nodes ∧
      {node | node ∈ nodes} = request.activeNodes := by
  have hall : ∀ d ∈ request.plan.paths, ∃ value, activeNode request.image d = .ok value := by
    intro d hd
    unfold activeNode
    split
    · exact ⟨none, rfl⟩
    split
    · rename_i hactive
      obtain ⟨id, hid⟩ := Option.isSome_iff_exists.mp (d.activates_incoming hactive)
      obtain ⟨image, himage⟩ := image_of_incoming hd hid
      obtain ⟨entry, hentry, hpath⟩ := request.entries_resolve image himage d hd id hid
      have hbound : incomingEntry image d = .ok (some entry) := by
        simp [incomingEntry, hid, hentry, hpath]
      simp only [himage, hbound]
      exact ⟨_, rfl⟩
    · exact ⟨_, rfl⟩
  obtain ⟨nodes, hnodes⟩ := collect_ok hall
  exact ⟨nodes, hnodes, Set.ext fun node => mem_collect hnodes node⟩

/-- Nodes of a plan are put in order unless they depend on each other in a cycle. -/
private theorem orderActiveNodes_error {nodes : List ActiveNode} {e : Exn}
    (hbound : ∀ node ∈ nodes, node.Bound request.image)
    (h : orderActiveNodes nodes request.image = .error e) : e = dependencyCycle := by
  obtain ⟨graph, hgraph⟩ := dependencyGraph_ok hbound
  unfold orderActiveNodes at h
  simp only [hgraph, bind, Except.bind] at h
  unfold refuseIf at h
  split at h
  · rename_i hrefused
    split at hrefused
    · cases hrefused
      exact (Except.error.inj h).symm
    · cases hrefused
  · cases h

/-! ## Inputs -/

/-- Preparation runs through payloads and nodes; the captures and the order
decide. -/
private theorem prepareInputs_eq (request : ApplicationRequest) :
    ∃ payloads steps nodes, {node | node ∈ nodes} = request.activeNodes ∧
      (nodes.map ActiveNode.path).Nodup ∧ (∀ node ∈ nodes, node.Bound request.image) ∧
      prepareInputs request = do
        let captures ← prepareOldObjectCaptures request.plan request.control
        let ordered ← orderActiveNodes nodes request.image
        return ⟨payloads, captures, captures.map (fun c => ⟨.captureOldObject, c.path, none⟩) ++
          steps ++ (request.plan.paths.filter fun d => d.rejected != .none).map (fun d =>
            ⟨.publishRejectedObject, d.path, d.incomingEntry⟩) ++
          ordered.map (fun node => ⟨.publishActiveObject, node.path, node.incoming⟩) ++
          request.plan.paths.map fun d => ⟨.observeResult, d.path, none⟩⟩ := by
  obtain ⟨payloads, hpayloads⟩ := requestPayloads_ok request
  obtain ⟨steps, hsteps⟩ := payloadSteps_ok hpayloads
  obtain ⟨nodes, hnodes, hset⟩ := collect_activeNode_ok request
  refine ⟨payloads, steps, nodes, hset, activeNodes_distinct hnodes, activeNodes_bound hnodes, ?_⟩
  unfold prepareInputs prepareApplicationSchedule
  simp only [hpayloads, bind, Except.bind]
  cases prepareOldObjectCaptures request.plan request.control with
  | error e => rfl
  | ok captures =>
    simp only [hsteps, hnodes]
    cases orderActiveNodes nodes request.image with
    | error e => rfl
    | ok ordered => rfl

/-- Inputs exist exactly where captures do and the active effects can be put in
order. -/
theorem prepareInputs_ok_iff (request : ApplicationRequest) :
    (∃ inputs, prepareInputs request = .ok inputs) ↔
      request.plan.StagesPresent ∧ ¬Cyclic ActiveNode.MustPrecede request.activeNodes := by
  obtain ⟨payloads, steps, nodes, hset, hdistinct, hbound, heq⟩ := prepareInputs_eq request
  have hcycle := orderActiveNodes_ok_iff hdistinct hbound
  rw [hset] at hcycle
  rw [← hcycle, ← prepareOldObjectCaptures_ok_iff request.control, heq]
  constructor
  · rintro ⟨inputs, h⟩
    obtain ⟨captures, hcaptures, h⟩ := bind_eq_ok_iff.mp h
    obtain ⟨ordered, hordered, -⟩ := bind_eq_ok_iff.mp h
    exact ⟨⟨captures, hcaptures⟩, ordered, hordered⟩
  · rintro ⟨⟨captures, hcaptures⟩, ordered, hordered⟩
    rw [hcaptures]
    exact ⟨_, bind_eq_ok_iff.mpr ⟨captures, rfl, bind_eq_ok_iff.mpr ⟨ordered, hordered, rfl⟩⟩⟩

/-- Inputs are refused with one of two errors. -/
private theorem prepareInputs_error {e : Exn} (h : prepareInputs request = .error e) :
    (e = absentOldObject ∧ ¬request.plan.StagesPresent) ∨
      (e = dependencyCycle ∧ request.plan.StagesPresent) := by
  obtain ⟨payloads, steps, nodes, -, -, hbound, heq⟩ := prepareInputs_eq request
  have hkept : _ ↔ request.plan.StagesPresent := prepareOldObjectCaptures_ok_iff request.control
  rw [heq] at h
  cases hcaptures : prepareOldObjectCaptures request.plan request.control with
  | error e' =>
    rw [hcaptures] at h
    cases h
    refine .inl ⟨prepareOldObjectCaptures_error hcaptures, fun hpresent => ?_⟩
    obtain ⟨captures, hok⟩ := hkept.mpr hpresent
    rw [hcaptures] at hok
    cases hok
  | ok captures =>
    refine .inr ⟨?_, hkept.mp ⟨captures, hcaptures⟩⟩
    rw [hcaptures] at h
    cases hordered : orderActiveNodes nodes request.image with
    | error e' =>
      rw [hordered] at h
      cases h
      exact orderActiveNodes_error hbound hordered
    | ok ordered =>
      rw [hordered] at h
      cases h

/-- **Preparation is exact.**  A request is prepared exactly where every old
object to be kept was there when the plan was made and the active effects
depend on each other in no cycle; otherwise the error says which it is, a
missing object first. -/
theorem prepareInputs_exact (request : ApplicationRequest) :
    ((∃ inputs, prepareInputs request = .ok inputs) ↔
      request.plan.StagesPresent ∧ ¬Cyclic ActiveNode.MustPrecede request.activeNodes) ∧
    (prepareInputs request = .error absentOldObject ↔ ¬request.plan.StagesPresent) ∧
    (prepareInputs request = .error dependencyCycle ↔
      request.plan.StagesPresent ∧ Cyclic ActiveNode.MustPrecede request.activeNodes) := by
  have hok := prepareInputs_ok_iff request
  have hmessage : absentOldObject ≠ dependencyCycle := by simp [absentOldObject, dependencyCycle]
  cases hprepare : prepareInputs request with
  | ok inputs =>
    obtain ⟨hpresent, hacyclic⟩ := hok.mp ⟨inputs, hprepare⟩
    simp [hpresent, hacyclic]
  | error e =>
    have hnot : ¬(request.plan.StagesPresent ∧
        ¬Cyclic ActiveNode.MustPrecede request.activeNodes) := by
      rw [← hok, hprepare]
      simp
    rcases prepareInputs_error hprepare with ⟨rfl, habsent⟩ | ⟨rfl, hpresent⟩
    · simp [habsent, hmessage]
    · have hcyclic : Cyclic ActiveNode.MustPrecede request.activeNodes := by
        by_contra hacyclic
        exact hnot ⟨hpresent, hacyclic⟩
      simp [hpresent, hcyclic, hmessage.symm]

end ApplicationRequest

end PkgApply
