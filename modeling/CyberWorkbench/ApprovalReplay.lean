import CyberWorkbench.ApprovalGate

/-!
# Single use of approval tokens

A token is signed claims and nothing else: no nonce, and its approval is known
by the action's id, which a new `create` takes over.  So a spent token that has
not expired is good again as soon as that action is approved again, and
`decide`, which looks at the clock before the status, turns a REJECTED or
CONSUMED record into an EXPIRED one.

`approval_tokens_single_use` says under which calls neither happens, and
`careless_create_replays` that the condition on `create` cannot be spared.
-/

namespace Workbench.Approvals

open StepMachine

variable {Token Bytes : Type} [DecidableEq Bytes] (codec : TokenCodec Token Bytes)

/-! ### Files and tokens -/

theorem approvalId_of_getRecord {files : ApprovalFiles} {approvalId : Nat}
    {record : ApprovalRecord} (h : getRecord files approvalId = some record) :
    record.approvalId = approvalId := by
  simpa using List.find?_some h

/-- A write is read back under its id, and nowhere else. -/
theorem getRecord_writeRecord (files : ApprovalFiles) (record : ApprovalRecord)
    (approvalId : Nat) :
    getRecord (writeRecord files record) approvalId =
      if record.approvalId = approvalId then some record else getRecord files approvalId := by
  by_cases hid : record.approvalId = approvalId
  · simp [getRecord, writeRecord, hid]
  · have hother : ∀ r : ApprovalRecord, (!(Decidable.decide (r.approvalId = record.approvalId)) &&
        Decidable.decide (r.approvalId = approvalId)) =
        Decidable.decide (r.approvalId = approvalId) := by
      intro r
      by_cases hr : r.approvalId = approvalId
      · simp [hr, Ne.symm hid]
      · simp [hr]
    simp [getRecord, writeRecord, hid, List.find?_filter, hother]

/-- An issued token reads back as its claims. -/
theorem readToken_of_issued {claims : ApprovalClaims} {token : Token}
    (h : issueApprovalToken codec claims = .ok token) : readToken codec token = .ok claims := by
  unfold issueApprovalToken at h
  cases hsecret : validateSecret codec with
  | error message => simp [hsecret, bind, Except.bind] at h
  | ok _ =>
      simp only [hsecret, bind, Except.bind, pure, Except.pure, Except.ok.injEq] at h
      subst h
      simp [readToken, hsecret, codec.split_join, codec.validate_dump, bind, Except.bind, pure,
        Except.pure]

/-- The claims are about this action and this approver. -/
def ApprovalClaims.Covers (claims : ApprovalClaims) (action : ProposedAction)
    (approverId : Nat) : Prop :=
  (claims.actionId = action.id ∧ claims.actionHash = codec.actionHash action) ∧
    (claims.targetId = action.targetId ∧ claims.incidentId = action.incidentId) ∧
      claims.projectId = action.projectId ∧ claims.approverId = approverId

/-- What `verify_approval_token` checks: signature, expiry, subject. -/
theorem verifyApprovalToken_eq_ok {token : Token} {action : ProposedAction} {approverId : Nat}
    {evaluatedAt : Int} {claims : ApprovalClaims} :
    verifyApprovalToken codec token action approverId evaluatedAt = .ok claims ↔
      readToken codec token = .ok claims ∧ evaluatedAt < claims.expiresAt ∧
        claims.Covers codec action approverId := by
  unfold verifyApprovalToken
  cases hread : readToken codec token with
  | error message => simp [bind, Except.bind]
  | ok read =>
      simp only [bind, Except.bind, pure, Except.pure, throw, throwThe, MonadExceptOf.throw]
      constructor
      · intro h
        split at h
        · cases h
        rename_i hexpired
        split at h
        · cases h
        rename_i haction
        split at h
        · cases h
        rename_i htarget
        split at h
        · cases h
        rename_i hproject
        obtain rfl := Except.ok.inj h
        simp only [not_or, ne_eq, Decidable.not_not] at haction htarget hproject
        exact ⟨rfl, by omega, haction, htarget, hproject⟩
      · rintro ⟨hclaims, hexpired, haction, htarget, hproject⟩
        obtain rfl := Except.ok.inj hclaims
        have hlive : ¬ read.expiresAt ≤ evaluatedAt := by omega
        simp [hlive, haction.1, haction.2, htarget.1, htarget.2, hproject.1, hproject.2]

/-! ### What one call does -/

/-- The approval a request that is not denied asks for. -/
def ApprovalCreateRequest.approval (request : ApprovalCreateRequest)
    (requesterId defaultApproverId : Nat) (evaluatedAt now : Int) : ApprovalRecord :=
  let decision := evaluateAction request.action request.scope request.environment evaluatedAt
  { approvalId := request.action.id
    action := request.action
    decision := decision
    status := .pending
    requesterId := requesterId
    approverId := request.approverId.getD defaultApproverId
    createdAt := now
    expiresAt := now + approvalLifetime decision }

/-- The policy lets the request through. -/
def ApprovalCreateRequest.Admitted (request : ApprovalCreateRequest) (evaluatedAt : Int) : Prop :=
  (evaluateAction request.action request.scope request.environment evaluatedAt).effect ≠ .deny

/-- `create` writes the approval of an admitted request over whatever that
action's file held, and nothing for another. -/
theorem create_files (files : ApprovalFiles) (request : ApprovalCreateRequest)
    (requesterId defaultApproverId : Nat) (evaluatedAt now : Int) :
    (request.Admitted evaluatedAt ∧
        (create files request requesterId defaultApproverId evaluatedAt now).2 =
          writeRecord files (request.approval requesterId defaultApproverId evaluatedAt now)) ∨
      (¬ request.Admitted evaluatedAt ∧
        (create files request requesterId defaultApproverId evaluatedAt now).2 = files) := by
  by_cases hdeny : (evaluateAction request.action request.scope request.environment
      evaluatedAt).effect = .deny
  · exact .inr ⟨fun h => h hdeny, by simp [create, hdeny]⟩
  · exact .inl ⟨hdeny, by simp [create, hdeny, ApprovalCreateRequest.approval]⟩

/-- An approval outlives its making. -/
theorem approval_live (request : ApprovalCreateRequest) (requesterId defaultApproverId : Nat)
    (evaluatedAt now : Int) :
    now < (request.approval requesterId defaultApproverId evaluatedAt now).expiresAt := by
  have hseconds : ∀ decision : PolicyDecision, decision.approvalTtlSeconds = none ∨
      decision.approvalTtlSeconds = some 300 → approvalLifetime decision = 300000000 := by
    rintro decision (h | h) <;> simp [approvalLifetime, h]
  have hlifetime := hseconds
    (evaluateAction request.action request.scope request.environment evaluatedAt) (by
      unfold evaluateAction
      simp only
      split
      · exact .inl rfl
      · split
        · exact .inr rfl
        · exact .inl rfl)
  show now < now + approvalLifetime _
  omega

/-- `decide` refuses, expires the record, rejects it, or grants it. -/
inductive Decided (files : ApprovalFiles) (approvalId approverId : Nat) (now : Int) :
    Except String (Option Token) × ApprovalFiles → Prop
  | refused (message : String) : Decided files approvalId approverId now (.error message, files)
  | expired (record : ApprovalRecord) (found : getRecord files approvalId = some record)
      (approver : record.approverId = approverId) (late : record.expiresAt ≤ now) :
      Decided files approvalId approverId now
        (.error "approval expired", writeRecord files { record with status := .expired })
  | rejected (record : ApprovalRecord) (found : getRecord files approvalId = some record)
      (pending : record.status = .pending) :
      Decided files approvalId approverId now
        (.ok none, writeRecord files { record with status := .rejected })
  | unsigned (record : ApprovalRecord) (message : String)
      (found : getRecord files approvalId = some record) (pending : record.status = .pending) :
      Decided files approvalId approverId now
        (.error message, writeRecord files { record with status := .granted })
  | granted (record : ApprovalRecord) (token : Token)
      (found : getRecord files approvalId = some record)
      (approver : record.approverId = approverId) (pending : record.status = .pending)
      (issued : issueApprovalToken codec (record.claims codec approverId) = .ok token) :
      Decided files approvalId approverId now
        (.ok (some token), writeRecord files { record with status := .granted })

omit [DecidableEq Bytes] in
theorem decide_cases (files : ApprovalFiles) (approvalId approverId : Nat) (approved : Bool)
    (now : Int) :
    Decided codec files approvalId approverId now
      (decide codec files approvalId approverId approved now) := by
  unfold decide
  split
  · exact .refused _
  rename_i record hfound
  split
  · exact .refused _
  rename_i happrover
  have happrover : record.approverId = approverId := Decidable.not_not.mp happrover
  split
  · rename_i hlate
    exact .expired record hfound happrover hlate
  split
  · exact .refused _
  rename_i hpending
  have hpending : record.status = .pending := Decidable.not_not.mp hpending
  split
  · exact .rejected record hfound hpending
  split
  · exact .unsigned record _ hfound hpending
  · rename_i token hissued
    exact .granted record token hfound happrover hpending hissued

/-- `consume` refuses, or spends a granted record with a token that verifies. -/
theorem consume_cases (files : ApprovalFiles) (action : ProposedAction) (token : Token)
    (approverId : Nat) (now : Int) :
    (∃ message, consume codec files action token approverId now = (.error message, files)) ∨
      ∃ claims record, consume codec files action token approverId now =
          (.ok claims, writeRecord files { record with status := .consumed }) ∧
        verifyApprovalToken codec token action approverId now = .ok claims ∧
        getRecord files claims.approvalId = some record ∧ record.status = .granted := by
  unfold consume
  split
  · exact .inl ⟨_, rfl⟩
  rename_i claims hverified
  split
  · exact .inl ⟨_, rfl⟩
  rename_i record hfound
  split
  · exact .inl ⟨_, rfl⟩
  rename_i hgranted
  exact .inr ⟨claims, record, rfl, hverified, hfound, Decidable.not_not.mp hgranted⟩

/-! ### The condition -/

/-- When a call is harmless.

* The clock does not run backwards.
* `create` takes an action up again only when every token accepted for it has
  expired, and for claims no token was issued with.
* `decide` does not come after the expiry of a rejected or consumed record. -/
def Careful (s : ApprovalState Token) (call : ApprovalCall Token) (_ : ApprovalState Token) :
    Prop :=
  (∀ earlier ∈ s.clock, earlier ≤ call.now) ∧
    match call with
    | .create request requesterId defaultApproverId evaluatedAt now =>
        let record := request.approval requesterId defaultApproverId evaluatedAt now
        request.Admitted evaluatedAt →
          (∀ spent ∈ s.accepted, spent.2.approvalId = request.action.id →
            spent.2.expiresAt ≤ now) ∧
          ∀ issued ∈ s.issued, issued.2 ≠ record.claims codec record.approverId
    | .decide approvalId approverId _ now =>
        ∀ record ∈ getRecord s.files approvalId, record.approverId = approverId →
          record.expiresAt ≤ now → record.status ≠ .rejected ∧ record.status ≠ .consumed
    | .consume .. => True

instance (request : ApprovalCreateRequest) (evaluatedAt : Int) :
    Decidable (request.Admitted evaluatedAt) :=
  inferInstanceAs (Decidable (_ ≠ _))

instance (s : ApprovalState Token) (call : ApprovalCall Token) (t : ApprovalState Token) :
    Decidable (Careful codec s call t) :=
  match call with
  | .create .. => inferInstanceAs (Decidable (_ ∧ (_ → _ ∧ _)))
  | .decide .. => inferInstanceAs (Decidable (_ ∧ _))
  | .consume .. => inferInstanceAs (Decidable (_ ∧ True))

/-- Final records keep their status, but for a `create` of their action. -/
def FinalKept (s : ApprovalState Token) (call : ApprovalCall Token) (t : ApprovalState Token) :
    Prop :=
  ∀ approvalId record, getRecord s.files approvalId = some record →
    record.status.isFinal = true →
    (∃ request requesterId defaultApproverId evaluatedAt now,
        call = .create request requesterId defaultApproverId evaluatedAt now ∧
          request.action.id = approvalId) ∨
      ∃ record', getRecord t.files approvalId = some record' ∧ record'.status = record.status

/-- An accepted token has expired, or its approval is over. -/
def Spent (s : ApprovalState Token) (x : Token × ApprovalClaims) : Prop :=
  readToken codec x.1 = .ok x.2 ∧
    ((∃ now, s.clock = some now ∧ x.2.expiresAt ≤ now) ∨
      ∃ record, getRecord s.files x.2.approvalId = some record ∧ record.status.isFinal = true)

/-- What the calls so far guarantee. -/
structure SingleUse (s : ApprovalState Token) : Prop where
  spent : ∀ x ∈ s.accepted, Spent codec s x
  readable : ∀ x ∈ s.issued, readToken codec x.1 = .ok x.2
  /-- a pending approval has claims of its own -/
  unissued : ∀ approvalId record, getRecord s.files approvalId = some record →
    record.status = .pending → ∀ x ∈ s.issued, x.2 ≠ record.claims codec record.approverId
  acceptedOnce : (s.accepted.map Prod.fst).Nodup
  issuedOnce : (s.issued.map Prod.fst).Nodup

variable {codec}

/-- A token stays spent while the clock goes on and final records stay so. -/
theorem Spent.mono {s t : ApprovalState Token} {x : Token × ApprovalClaims}
    (h : Spent codec s x)
    (hclock : ∀ earlier, s.clock = some earlier → ∃ now, t.clock = some now ∧ earlier ≤ now)
    (hfinal : ∀ record, getRecord s.files x.2.approvalId = some record →
      record.status.isFinal = true →
        (∃ now, t.clock = some now ∧ x.2.expiresAt ≤ now) ∨
          ∃ record', getRecord t.files x.2.approvalId = some record' ∧
            record'.status.isFinal = true) :
    Spent codec t x := by
  obtain ⟨hread, ⟨earlier, hearlier, hexpired⟩ | ⟨record, hfound, hover⟩⟩ := h
  · obtain ⟨now, hnow, hle⟩ := hclock earlier hearlier
    exact ⟨hread, .inl ⟨now, hnow, by omega⟩⟩
  · exact ⟨hread, hfinal record hfound hover⟩

/-- The start: nothing issued, nothing accepted. -/
theorem singleUse_start {s : ApprovalState Token} (h : (approvalMachine codec).Start s) :
    SingleUse codec s := by
  obtain ⟨hfiles, hissued, haccepted⟩ := h
  refine ⟨by simp [haccepted], by simp [hissued], ?_, by simp [haccepted], by simp [hissued]⟩
  intro approvalId record hfound
  simp [hfiles, getRecord] at hfound

theorem clock_goes_on {s : ApprovalState Token} {now : Int}
    (h : ∀ earlier, s.clock = some earlier → earlier ≤ now) :
    ∀ earlier, s.clock = some earlier → ∃ n, some now = some n ∧ earlier ≤ n :=
  fun earlier hearlier => ⟨now, rfl, h earlier hearlier⟩

theorem singleUse_create {s : ApprovalState Token} (hs : SingleUse codec s)
    (request : ApprovalCreateRequest) (requesterId defaultApproverId : Nat)
    (evaluatedAt now : Int)
    (hcare : Careful codec s
      (.create request requesterId defaultApproverId evaluatedAt now) s) :
    SingleUse codec (approvalStep codec s
      (.create request requesterId defaultApproverId evaluatedAt now)) := by
  obtain ⟨hclock, hcare⟩ := hcare
  have hgoes := clock_goes_on hclock
  obtain ⟨hadmitted, hfiles⟩ | ⟨_, hfiles⟩ :=
    create_files s.files request requesterId defaultApproverId evaluatedAt now
  · obtain ⟨hexpired, hfresh⟩ := hcare hadmitted
    refine ⟨fun x hx => (hs.spent x hx).mono hgoes ?_, hs.readable, ?_, hs.acceptedOnce,
      hs.issuedOnce⟩
    · intro record hfound hover
      simp only [approvalStep, hfiles, getRecord_writeRecord]
      split
      · rename_i hid
        exact .inl ⟨now, rfl, hexpired x hx hid.symm⟩
      · exact .inr ⟨record, hfound, hover⟩
    · intro approvalId record hfound hpending
      simp only [approvalStep, hfiles, getRecord_writeRecord] at hfound
      split at hfound
      · obtain rfl := Option.some.inj hfound
        exact hfresh
      · exact hs.unissued approvalId record hfound hpending
  · refine ⟨fun x hx => (hs.spent x hx).mono hgoes ?_, hs.readable, ?_, hs.acceptedOnce,
      hs.issuedOnce⟩
    · intro record hfound hover
      exact .inr ⟨record, by simpa only [approvalStep, hfiles] using hfound, hover⟩
    · intro approvalId record hfound hpending
      exact hs.unissued approvalId record (by simpa only [approvalStep, hfiles] using hfound)
        hpending

/-- One record moved on to a status that is not pending, a final one to a final
one; or nothing happened. -/
inductive Advanced (files : ApprovalFiles) : ApprovalFiles → Prop
  | same : Advanced files files
  | moved (approvalId : Nat) (record : ApprovalRecord) (status : ApprovalStatus)
      (found : getRecord files approvalId = some record) (moves : status ≠ .pending)
      (stays : record.status.isFinal = true → status.isFinal = true) :
      Advanced files (writeRecord files { record with status := status })

/-- A record that is pending afterwards was there before. -/
theorem Advanced.pending {files files' : ApprovalFiles} (h : Advanced files files')
    {approvalId : Nat} {record : ApprovalRecord}
    (hfound : getRecord files' approvalId = some record) (hpending : record.status = .pending) :
    getRecord files approvalId = some record := by
  cases h with
  | same => exact hfound
  | moved id old status found moves stays =>
      rw [getRecord_writeRecord] at hfound
      split at hfound
      · obtain rfl := Option.some.inj hfound
        exact absurd hpending moves
      · exact hfound

/-- A final record is still final. -/
theorem Advanced.final {files files' : ApprovalFiles} (h : Advanced files files')
    {approvalId : Nat} {record : ApprovalRecord}
    (hfound : getRecord files approvalId = some record) (hover : record.status.isFinal = true) :
    ∃ record', getRecord files' approvalId = some record' ∧ record'.status.isFinal = true := by
  cases h with
  | same => exact ⟨record, hfound, hover⟩
  | moved id old status found moves stays =>
      rw [getRecord_writeRecord]
      split
      · rename_i hid
        have hid' : id = approvalId := (approvalId_of_getRecord found).symm.trans hid
        rw [hid', hfound] at found
        obtain rfl := Option.some.inj found
        exact ⟨_, rfl, stays hover⟩
      · exact ⟨record, hfound, hover⟩

omit [DecidableEq Bytes] in
theorem decide_advanced {files : ApprovalFiles} {approvalId approverId : Nat} {now : Int}
    {result : Except String (Option Token) × ApprovalFiles}
    (h : Decided codec files approvalId approverId now result) : Advanced files result.2 := by
  cases h with
  | refused message => exact .same
  | expired record found approver late =>
      exact .moved approvalId record .expired found (by simp) (fun _ => rfl)
  | rejected record found pending =>
      exact .moved approvalId record .rejected found (by simp) (fun _ => rfl)
  | unsigned record message found pending =>
      exact .moved approvalId record .granted found (by simp)
        (by simp [pending, ApprovalStatus.isFinal])
  | granted record token found approver pending issued =>
      exact .moved approvalId record .granted found (by simp)
        (by simp [pending, ApprovalStatus.isFinal])

/-- `decide` issues nothing, or the token of a pending record it grants. -/
theorem decide_issued (s : ApprovalState Token) (approvalId approverId : Nat) (approved : Bool)
    (now : Int) :
    (approvalStep codec s (.decide approvalId approverId approved now)).issued = s.issued ∨
      ∃ record token, getRecord s.files approvalId = some record ∧ record.status = .pending ∧
        readToken codec token = .ok (record.claims codec record.approverId) ∧
        (decide codec s.files approvalId approverId approved now).2 =
          writeRecord s.files { record with status := .granted } ∧
        (approvalStep codec s (.decide approvalId approverId approved now)).issued =
          s.issued ++ [(token, record.claims codec record.approverId)] := by
  have hdecided := decide_cases codec s.files approvalId approverId approved now
  generalize hresult : decide codec s.files approvalId approverId approved now = result
    at hdecided
  cases hdecided with
  | refused message => exact .inl (by simp [approvalStep, hresult])
  | expired record found approver late => exact .inl (by simp [approvalStep, hresult])
  | rejected record found pending => exact .inl (by simp [approvalStep, hresult])
  | unsigned record message found pending => exact .inl (by simp [approvalStep, hresult])
  | granted record token found approver pending issued =>
      refine .inr ⟨record, token, found, pending, ?_, rfl, ?_⟩
      · rw [approver]
        exact readToken_of_issued codec issued
      · simp [approvalStep, hresult, found, approver]

/-- A token read as other claims is another token. -/
theorem not_mem_tokens {tokens : List (Token × ApprovalClaims)} {token : Token}
    {claims : ApprovalClaims} (hread : readToken codec token = .ok claims)
    (hreads : ∀ x ∈ tokens, readToken codec x.1 = .ok x.2)
    (hother : ∀ x ∈ tokens, x.2 ≠ claims) : token ∉ tokens.map Prod.fst := by
  intro hmem
  obtain ⟨x, hx, rfl⟩ := List.mem_map.mp hmem
  have hsame : Except.ok x.2 = Except.ok (ε := String) claims := (hreads x hx).symm.trans hread
  exact hother x hx (Except.ok.inj hsame)

theorem singleUse_decide {s : ApprovalState Token} (hs : SingleUse codec s)
    (approvalId approverId : Nat) (approved : Bool) (now : Int)
    (hclock : ∀ earlier, s.clock = some earlier → earlier ≤ now) :
    SingleUse codec (approvalStep codec s (.decide approvalId approverId approved now)) := by
  have hadvanced := decide_advanced (decide_cases codec s.files approvalId approverId approved now)
  have hspent : ∀ x ∈ s.accepted,
      Spent codec (approvalStep codec s (.decide approvalId approverId approved now)) x :=
    fun x hx => (hs.spent x hx).mono (clock_goes_on hclock) (fun record hfound hover =>
      .inr (hadvanced.final hfound hover))
  have hunissued : ∀ id record,
      getRecord (decide codec s.files approvalId approverId approved now).2 id = some record →
      record.status = .pending → ∀ x ∈ s.issued, x.2 ≠ record.claims codec record.approverId :=
    fun id record hfound hpending =>
      hs.unissued id record (hadvanced.pending hfound hpending) hpending
  obtain hissued | ⟨record, token, hfound, hpending, hread, hfiles, hissued⟩ :=
    @decide_issued _ _ _ codec s approvalId approverId approved now
  · exact ⟨hspent, hissued ▸ hs.readable, hissued ▸ hunissued, hs.acceptedOnce,
      hissued ▸ hs.issuedOnce⟩
  · have hother := hs.unissued approvalId record hfound hpending
    refine ⟨hspent, ?_, ?_, hs.acceptedOnce, ?_⟩
    · rw [hissued]
      intro x hx
      obtain hx | hx := List.mem_append.mp hx
      · exact hs.readable x hx
      · obtain rfl := List.mem_singleton.mp hx
        exact hread
    · rw [hissued]
      intro id r hr hrpending x hx
      obtain hx | hx := List.mem_append.mp hx
      · exact hunissued id r hr hrpending x hx
      · -- the new claims name the granted record, which is pending no longer
        obtain rfl := List.mem_singleton.mp hx
        intro hclaims
        have hids : record.approvalId = r.approvalId := congrArg ApprovalClaims.approvalId hclaims
        have hr' : getRecord (writeRecord s.files { record with status := .granted }) id =
            some r := hfiles ▸ hr
        rw [getRecord_writeRecord, if_pos (hids.trans (approvalId_of_getRecord hr))] at hr'
        obtain rfl := Option.some.inj hr'
        cases hrpending
    · rw [hissued, List.map_append, List.nodup_append]
      refine ⟨hs.issuedOnce, by simp, ?_⟩
      intro a ha b hb hab
      obtain rfl := List.mem_singleton.mp hb
      subst hab
      exact not_mem_tokens hread hs.readable hother ha

theorem singleUse_consume {s : ApprovalState Token} (hs : SingleUse codec s)
    (action : ProposedAction) (token : Token) (approverId : Nat) (now : Int)
    (hclock : ∀ earlier, s.clock = some earlier → earlier ≤ now) :
    SingleUse codec (approvalStep codec s (.consume action token approverId now)) := by
  obtain ⟨message, hrefused⟩ | ⟨claims, record, haccepted, hverified, hfound, hgranted⟩ :=
    consume_cases codec s.files action token approverId now
  · refine ⟨?_, hs.readable, ?_, by simpa [approvalStep, hrefused] using hs.acceptedOnce,
      hs.issuedOnce⟩
    · intro x hx
      have hx : x ∈ s.accepted := by simpa [approvalStep, hrefused] using hx
      exact (hs.spent x hx).mono (clock_goes_on hclock) (fun record hfound hover =>
        .inr ⟨record, by simpa only [approvalStep, hrefused] using hfound, hover⟩)
    · intro id record hfound hpending
      exact hs.unissued id record (by simpa only [approvalStep, hrefused] using hfound) hpending
  · obtain ⟨hread, hlive, _⟩ := (verifyApprovalToken_eq_ok codec).mp hverified
    have hadvanced : Advanced s.files (writeRecord s.files { record with status := .consumed }) :=
      .moved _ record .consumed hfound (by simp) (fun _ => rfl)
    have hconsumed : getRecord (writeRecord s.files { record with status := .consumed })
        claims.approvalId = some { record with status := .consumed } := by
      rw [getRecord_writeRecord, if_pos (approvalId_of_getRecord hfound)]
    have hnew : (approvalStep codec s (.consume action token approverId now)).accepted =
        s.accepted ++ [(token, claims)] := by simp [approvalStep, haccepted]
    refine ⟨?_, hs.readable, ?_, ?_, hs.issuedOnce⟩
    · rw [hnew]
      intro x hx
      obtain hx | hx := List.mem_append.mp hx
      · refine (hs.spent x hx).mono (clock_goes_on hclock) ?_
        intro r hr hover
        simp only [approvalStep, haccepted]
        exact .inr (hadvanced.final hr hover)
      · obtain rfl := List.mem_singleton.mp hx
        refine ⟨hread, .inr ⟨{ record with status := .consumed }, ?_, rfl⟩⟩
        simpa only [approvalStep, haccepted] using hconsumed
    · intro id r hr hpending
      simp only [approvalStep, haccepted] at hr
      exact hs.unissued id r (hadvanced.pending hr hpending) hpending
    · rw [hnew, List.map_append, List.nodup_append]
      refine ⟨hs.acceptedOnce, by simp, ?_⟩
      intro a ha b hb hab
      obtain rfl := List.mem_singleton.mp hb
      subst hab
      -- accepted before: expired by now, or its approval is over
      obtain ⟨x, hx, hxtoken⟩ := List.mem_map.mp ha
      obtain ⟨hxread, hxspent⟩ := hs.spent x hx
      have hsame : x.2 = claims := by
        rw [hxtoken, hread] at hxread
        exact (Except.ok.inj hxread).symm
      rw [hsame] at hxspent
      obtain ⟨earlier, hearlier, hexpired⟩ | ⟨r, hr, hover⟩ := hxspent
      · have := hclock earlier hearlier
        omega
      · rw [hfound] at hr
        obtain rfl := Option.some.inj hr
        rw [hgranted] at hover
        cases hover

/-! ### Runs -/

/-- A careful call keeps what the calls so far guarantee. -/
theorem singleUse_step {s t : ApprovalState Token} {call : ApprovalCall Token}
    (hs : SingleUse codec s) (hcare : Careful codec s call t)
    (hstep : (approvalMachine codec).step s call = some t) : SingleUse codec t := by
  obtain rfl : approvalStep codec s call = t := Option.some.inj hstep
  cases call with
  | create request requesterId defaultApproverId evaluatedAt now =>
      exact singleUse_create hs request requesterId defaultApproverId evaluatedAt now hcare
  | decide approvalId approverId approved now =>
      exact singleUse_decide hs approvalId approverId approved now hcare.1
  | consume action token approverId now =>
      exact singleUse_consume hs action token approverId now hcare.1

/-- The write of one record leaves the others' status alone. -/
theorem status_of_write {files : ApprovalFiles} {id : Nat} {old : ApprovalRecord}
    {status : ApprovalStatus} (hold : getRecord files id = some old)
    (hsame : old.status.isFinal = true → status = old.status) {approvalId : Nat}
    {record : ApprovalRecord} (hfound : getRecord files approvalId = some record)
    (hover : record.status.isFinal = true) :
    ∃ record', getRecord (writeRecord files { old with status := status }) approvalId =
      some record' ∧ record'.status = record.status := by
  rw [getRecord_writeRecord]
  split
  · rename_i hid
    have hid' : id = approvalId := (approvalId_of_getRecord hold).symm.trans hid
    rw [hid', hfound] at hold
    obtain rfl := Option.some.inj hold
    exact ⟨_, rfl, hsame hover⟩
  · exact ⟨record, hfound, rfl⟩

/-- A careful call keeps the status of final records. -/
theorem finalKept_step {s t : ApprovalState Token} {call : ApprovalCall Token}
    (hcare : Careful codec s call t)
    (hstep : (approvalMachine codec).step s call = some t) : FinalKept s call t := by
  obtain rfl : approvalStep codec s call = t := Option.some.inj hstep
  intro approvalId record hfound hover
  cases call with
  | create request requesterId defaultApproverId evaluatedAt now =>
      by_cases hid : request.action.id = approvalId
      · exact .inl ⟨request, requesterId, defaultApproverId, evaluatedAt, now, rfl, hid⟩
      refine .inr ⟨record, ?_, rfl⟩
      obtain ⟨_, hfiles⟩ | ⟨_, hfiles⟩ :=
        create_files s.files request requesterId defaultApproverId evaluatedAt now
      · simp only [approvalStep, hfiles, getRecord_writeRecord]
        exact (if_neg hid).trans hfound
      · simpa only [approvalStep, hfiles] using hfound
  | decide id approverId approved now =>
      refine .inr ?_
      have hdecided := decide_cases codec s.files id approverId approved now
      show ∃ record', getRecord (decide codec s.files id approverId approved now).2 approvalId =
        some record' ∧ record'.status = record.status
      generalize decide codec s.files id approverId approved now = result at hdecided
      cases hdecided with
      | refused message => exact ⟨record, hfound, rfl⟩
      | expired old found approver late =>
          obtain ⟨hrejected, hconsumed⟩ := hcare.2 old found approver late
          refine status_of_write found ?_ hfound hover
          intro hover
          cases hstatus : old.status <;> simp_all [ApprovalStatus.isFinal]
      | rejected old found pending =>
          exact status_of_write found (by simp [pending, ApprovalStatus.isFinal]) hfound hover
      | unsigned old message found pending =>
          exact status_of_write found (by simp [pending, ApprovalStatus.isFinal]) hfound hover
      | granted old token found approver pending issued =>
          exact status_of_write found (by simp [pending, ApprovalStatus.isFinal]) hfound hover
  | consume action token approverId now =>
      refine .inr ?_
      obtain ⟨message, hrefused⟩ | ⟨claims, old, haccepted, _, hold, hgranted⟩ :=
        consume_cases codec s.files action token approverId now
      · exact ⟨record, by simpa only [approvalStep, hrefused] using hfound, rfl⟩
      · simp only [approvalStep, haccepted]
        exact status_of_write hold (by simp [hgranted, ApprovalStatus.isFinal]) hfound hover

/-- Whatever is accepted was verified for some action and approver. -/
theorem accepted_covers {s : ApprovalState Token} (h : Reachable (approvalMachine codec) s) :
    ∀ x ∈ s.accepted, readToken codec x.1 = .ok x.2 ∧
      ∃ action approverId, x.2.Covers codec action approverId := by
  refine reachable_invariant (I := fun s => ∀ x ∈ s.accepted, readToken codec x.1 = .ok x.2 ∧
    ∃ action approverId, x.2.Covers codec action approverId) ?_ ?_ h
  · intro s hstart x hx
    simp [hstart.2.2] at hx
  · intro s call t hs hstep
    obtain rfl : approvalStep codec s call = t := Option.some.inj hstep
    cases call with
    | create request requesterId defaultApproverId evaluatedAt now => exact hs
    | decide approvalId approverId approved now => exact hs
    | consume action token approverId now =>
        obtain ⟨message, hrefused⟩ | ⟨claims, record, haccepted, hverified, _, _⟩ :=
          consume_cases codec s.files action token approverId now
        · simpa [approvalStep, hrefused] using hs
        · obtain ⟨hread, _, hcovers⟩ := (verifyApprovalToken_eq_ok codec).mp hverified
          intro x hx
          simp only [approvalStep, haccepted] at hx
          obtain hx | hx := List.mem_append.mp hx
          · exact hs x hx
          · obtain rfl := List.mem_singleton.mp hx
            exact ⟨hread, action, approverId, hcovers⟩

omit [DecidableEq Bytes] in
/-- A pending record in time is granted to its approver. -/
theorem decide_grants {files : ApprovalFiles} {approvalId : Nat} {record : ApprovalRecord}
    {now : Int} (hfound : getRecord files approvalId = some record)
    (hpending : record.status = .pending) (hlive : now < record.expiresAt) :
    (decide codec files approvalId record.approverId true now).2 =
      writeRecord files { record with status := .granted } := by
  have hlate : ¬ record.expiresAt ≤ now := by omega
  simp only [decide, hfound]
  simp only [ne_eq, not_true_eq_false, if_false, hlate, hpending, reduceCtorEq]
  split <;> rfl

/-- A granted record is spent by any token of its id that verifies. -/
theorem consume_accepts {files : ApprovalFiles} {action : ProposedAction} {token : Token}
    {approverId : Nat} {now : Int} {claims : ApprovalClaims} {record : ApprovalRecord}
    (hverified : verifyApprovalToken codec token action approverId now = .ok claims)
    (hfound : getRecord files claims.approvalId = some record)
    (hgranted : record.status = .granted) :
    (consume codec files action token approverId now).1 = .ok claims := by
  simp [consume, hverified, hfound, hgranted]

/-- **The condition on `create` cannot be spared.**  Taking an action up again
while a token accepted for it is still good lets that token be spent twice. -/
theorem careless_create_replays {s : ApprovalState Token}
    (hs : Reachable (approvalMachine codec) s) {x : Token × ApprovalClaims}
    (hx : x ∈ s.accepted) (request : ApprovalCreateRequest)
    (requesterId defaultApproverId : Nat) (evaluatedAt now : Int)
    (hadmitted : request.Admitted evaluatedAt) (hid : x.2.approvalId = request.action.id)
    (hlive : now < x.2.expiresAt) :
    ∃ action approverId t, exec (approvalMachine codec) s
        [.create request requesterId defaultApproverId evaluatedAt now,
         .decide request.action.id (request.approverId.getD defaultApproverId) true now,
         .consume action x.1 approverId now] = some t ∧ ¬ (t.accepted.map Prod.fst).Nodup := by
  obtain ⟨hread, action, approverId, hcovers⟩ := accepted_covers hs x hx
  refine ⟨action, approverId, _, rfl, ?_⟩
  let record := request.approval requesterId defaultApproverId evaluatedAt now
  let granted := { record with status := .granted }
  have hcreated : (approvalStep codec s
      (.create request requesterId defaultApproverId evaluatedAt now)).files =
        writeRecord s.files record := by
    obtain ⟨_, hfiles⟩ | ⟨hdenied, _⟩ :=
      create_files s.files request requesterId defaultApproverId evaluatedAt now
    · exact hfiles
    · exact absurd hadmitted hdenied
  have haccepted : (approvalStep codec s
      (.create request requesterId defaultApproverId evaluatedAt now)).accepted =
        s.accepted := rfl
  generalize approvalStep codec s
    (.create request requesterId defaultApproverId evaluatedAt now) = created
      at hcreated haccepted ⊢
  have hfound : getRecord created.files request.action.id = some record := by
    rw [hcreated, getRecord_writeRecord]
    exact if_pos rfl
  have hdecided : (approvalStep codec created (.decide request.action.id
      (request.approverId.getD defaultApproverId) true now)).files =
        writeRecord created.files granted :=
    decide_grants hfound rfl (approval_live request requesterId defaultApproverId evaluatedAt now)
  have haccepted' : (approvalStep codec created (.decide request.action.id
      (request.approverId.getD defaultApproverId) true now)).accepted = s.accepted := haccepted
  generalize approvalStep codec created (.decide request.action.id
    (request.approverId.getD defaultApproverId) true now) = decided at hdecided haccepted' ⊢
  have hgranted : getRecord decided.files x.2.approvalId = some granted := by
    rw [hdecided, getRecord_writeRecord]
    exact if_pos hid.symm
  have hspent := consume_accepts ((verifyApprovalToken_eq_ok codec).mpr ⟨hread, hlive, hcovers⟩)
    hgranted rfl
  have htwice : (approvalStep codec decided (.consume action x.1 approverId now)).accepted =
      s.accepted ++ [(x.1, x.2)] := by
    simp [approvalStep, hspent, haccepted']
  rw [htwice, List.map_append, List.nodup_append]
  exact fun h => h.2.2 x.1 (List.mem_map_of_mem hx) x.1 (by simp) rfl

/-- **Tokens are single use under careful calls.**  Then no token is accepted
twice, no two tokens issued are equal, and final records keep their status
until their action is created afresh. -/
theorem approval_tokens_single_use (codec : TokenCodec Token Bytes)
    {s t : ApprovalState Token} {calls : List (ApprovalCall Token)}
    (hstart : (approvalMachine codec).Start s)
    (hcare : StepsMeet (approvalMachine codec) (Careful codec) s calls)
    (hrun : exec (approvalMachine codec) s calls = some t) :
    (t.accepted.map Prod.fst).Nodup ∧ (t.issued.map Prod.fst).Nodup ∧
      StepsMeet (approvalMachine codec) FinalKept s calls := by
  have hsafe : SingleUse codec t :=
    exec_invariant (fun s call t hs hcare hstep => singleUse_step hs hcare hstep)
      (singleUse_start hstart) hcare hrun
  refine ⟨hsafe.acceptedOnce, hsafe.issuedOnce, ?_⟩
  exact stepsMeet_of_invariant (fun s call t hs hcare hstep => singleUse_step hs hcare hstep)
    (fun s call t _ hcare hstep => finalKept_step hcare hstep) (singleUse_start hstart) hcare

/-! ### Two runs -/

/-- Claims written as they are, signed by themselves. -/
def plainCodec : TokenCodec (ApprovalClaims × ApprovalClaims) ApprovalClaims where
  dump claims := claims
  validate claims := some claims
  hmac claims := claims
  join body signature := (body, signature)
  split token := some token
  actionHash action := action.actionType
  secretLength := 32
  validate_dump _ := rfl
  split_join _ _ := rfl

/-- A request to restart a service. -/
def restartService : ApprovalCreateRequest :=
  { action := { id := 1, projectId := 1, incidentId := 1, targetId := 1,
                actionType := "restart_service", riskLevel := .l1 }
    scope := { allowedTargetIds := [1], allowedActionTypes := ["restart_service"],
               maximumRiskLevel := .l1 } }

/-- The token its approval earns. -/
def restartToken (expiresAt : Int) : ApprovalClaims × ApprovalClaims :=
  let claims := (restartService.approval 1 2 0 0).claims plainCodec 2
  ({ claims with expiresAt := expiresAt }, { claims with expiresAt := expiresAt })

/-- The action is approved, carried out, and approved again after the first
token's expiry. -/
def approvedTwice : List (ApprovalCall (ApprovalClaims × ApprovalClaims)) :=
  [.create restartService 1 2 0 0, .decide 1 2 true 1,
   .consume restartService.action (restartToken 300000000) 2 2,
   .create restartService 1 2 300000000 300000000, .decide 1 2 true 300000001,
   .consume restartService.action (restartToken 600000000) 2 300000002]

theorem approvedTwice_single_use :
    ∃ t, exec (approvalMachine plainCodec) {} approvedTwice = some t ∧
      (t.accepted.map Prod.fst).Nodup ∧ (t.issued.map Prod.fst).Nodup ∧
        StepsMeet (approvalMachine plainCodec) FinalKept {} approvedTwice := by
  exact ⟨_, rfl, approval_tokens_single_use plainCodec ⟨rfl, rfl, rfl⟩ (by decide) rfl⟩

/-- The action is taken up again while its spent token is good. -/
def replayedApproval : List (ApprovalCall (ApprovalClaims × ApprovalClaims)) :=
  [.create restartService 1 2 0 0, .decide 1 2 true 1,
   .consume restartService.action (restartToken 300000000) 2 2,
   .create restartService 1 2 3 3, .decide 1 2 true 4,
   .consume restartService.action (restartToken 300000000) 2 5]

/-- A consumed record is decided on after its expiry. -/
def lateDecision : List (ApprovalCall (ApprovalClaims × ApprovalClaims)) :=
  [.create restartService 1 2 0 0, .decide 1 2 true 1,
   .consume restartService.action (restartToken 300000000) 2 2, .decide 1 2 true 300000000]

/-- The same token is accepted twice, and a CONSUMED record becomes EXPIRED. -/
theorem spent_token_replayed :
    (∃ t, exec (approvalMachine plainCodec) {} replayedApproval = some t ∧
      t.accepted.map Prod.fst = [restartToken 300000000, restartToken 300000000]) ∧
    ¬ StepsMeet (approvalMachine plainCodec) FinalKept {} lateDecision := by
  refine ⟨⟨_, rfl, by decide⟩, ?_⟩
  intro h
  have hlast := ((((h _ rfl).2 _ rfl).2 _ rfl).2 _ rfl).1
  obtain ⟨request, _, _, _, _, hcall, _⟩ | ⟨record, hfound, hstatus⟩ := hlast 1 _ rfl rfl
  · cases hcall
  · obtain rfl := Option.some.inj hfound
    exact absurd hstatus (by decide)

end Workbench.Approvals
