import CyberWorkbench.ApprovalReplay

/-!
# What an approval token is bound to

A token carries the action's id and the digest of everything else in the
action, so it fits one action only; and its claims are those of the record
that `decide` granted.  But what `consume` spends is the record under the
action's id, which any other token of that id spends as well: a token of an
earlier approval of the same action that has not expired.

`consume_bound` is the first half, `issued_token_accepted_iff` the second:
a token whose record nobody rewrote is accepted exactly when no token of its
action id has been accepted since it was issued.
-/

namespace Workbench.Approvals

open StepMachine

variable {Token Bytes : Type} [DecidableEq Bytes] (codec : TokenCodec Token Bytes)

/-! ### Assumptions on the digest and the signature -/

/-- `model_dump(exclude={"id"})`. -/
def ProposedAction.content (action : ProposedAction) : ProposedAction := { action with id := 0 }

/-- No action of other content has this action's digest. -/
def HashSeparates (action : ProposedAction) : Prop :=
  ∀ other : ProposedAction, codec.actionHash other = codec.actionHash action →
    other.content = action.content

/-- A signature that fits was made by `issue_approval_token`. -/
def Unforged (issued : List (Token × ApprovalClaims)) (token : Token) : Prop :=
  ∀ body signature, codec.split token = some (body, signature) → signature = codec.hmac body →
    ∃ x ∈ issued, codec.dump x.2 = body

/-- `consume` accepts the token. -/
def Accepts (files : ApprovalFiles) (action : ProposedAction) (token : Token) (approverId : Nat)
    (now : Int) : Prop :=
  ∃ claims, (consume codec files action token approverId now).1 = .ok claims

/-- Id and content make up the action. -/
theorem ProposedAction.ext_content {a b : ProposedAction} (hid : a.id = b.id)
    (hcontent : a.content = b.content) : a = b := by
  cases a
  cases b
  simp only [ProposedAction.content, ProposedAction.mk.injEq] at hcontent hid ⊢
  exact ⟨hid, hcontent.2⟩

/-- An unforged token reads as claims that were issued. -/
theorem Unforged.issued {issued : List (Token × ApprovalClaims)} {token : Token}
    {claims : ApprovalClaims} (h : Unforged codec issued token)
    (hread : readToken codec token = .ok claims) : ∃ x ∈ issued, x.2 = claims := by
  unfold readToken at hread
  cases hsecret : validateSecret codec with
  | error message => simp [hsecret, bind, Except.bind] at hread
  | ok _ =>
      simp only [hsecret, bind, Except.bind, pure, Except.pure, throw, throwThe,
        MonadExceptOf.throw] at hread
      split at hread
      · cases hread
      rename_i body signature hsplit
      split at hread
      · cases hread
      rename_i hsignature
      obtain ⟨x, hx, hdump⟩ := h body signature hsplit (Decidable.not_not.mp hsignature)
      rw [← hdump, codec.validate_dump] at hread
      exact ⟨x, hx, Except.ok.inj hread⟩

/-! ### Where tokens come from -/

/-- In this run the approver granted the record: `decide(approved=True)` read
it, and returned a token with the record's claims. -/
def GrantedDuring (s : ApprovalState Token) (calls : List (ApprovalCall Token))
    (record : ApprovalRecord) (approverId : Nat) (token : Token) : Prop :=
  ∃ before after decidedAt mid, calls =
      before ++ .decide record.approvalId approverId true decidedAt :: after ∧
    exec (approvalMachine codec) s before = some mid ∧
    getRecord mid.files record.approvalId = some record ∧
    (decide codec mid.files record.approvalId approverId true decidedAt).1 = .ok (some token)

/-- A call issues at most the token of a record it grants. -/
theorem issued_of_step {s : ApprovalState Token} {call : ApprovalCall Token}
    {x : Token × ApprovalClaims} (hx : x ∈ (approvalStep codec s call).issued) :
    x ∈ s.issued ∨ ∃ record approverId now,
      call = .decide record.approvalId approverId true now ∧
      getRecord s.files record.approvalId = some record ∧
      (decide codec s.files record.approvalId approverId true now).1 = .ok (some x.1) ∧
      x.2 = record.claims codec approverId := by
  cases call with
  | create request requesterId defaultApproverId evaluatedAt now => exact .inl hx
  | consume action token approverId now => exact .inl hx
  | decide approvalId approverId approved now =>
      simp only [approvalStep] at hx
      rcases List.mem_append.mp hx with hold | hnew
      · exact .inl hold
      · right
        split at hnew
        · rename_i token record hresult hfound
          obtain rfl := List.mem_singleton.mp hnew
          have happroved : approved = true := by
            cases approved with
            | true => rfl
            | false =>
                exfalso
                unfold decide at hresult
                rw [hfound] at hresult
                simp only [if_true] at hresult
                split at hresult
                · cases hresult
                split at hresult
                · cases hresult
                split at hresult
                · cases hresult
                · cases Except.ok.inj hresult
          subst happroved
          obtain rfl := approvalId_of_getRecord hfound
          exact ⟨record, approverId, now, rfl, hfound, hresult, rfl⟩
        · cases hnew

/-- **Every token issued in a run was granted in it**, unless it was there at
the start. -/
theorem issued_granted {s t : ApprovalState Token} {calls : List (ApprovalCall Token)}
    (hrun : exec (approvalMachine codec) s calls = some t) {x : Token × ApprovalClaims}
    (hx : x ∈ t.issued) :
    x ∈ s.issued ∨ ∃ record approverId, GrantedDuring codec s calls record approverId x.1 ∧
      x.2 = record.claims codec approverId := by
  induction calls generalizing s with
  | nil =>
      obtain rfl : s = t := by simpa using hrun
      exact .inl hx
  | cons call rest ih =>
      obtain ⟨next, hstep, hrest⟩ := exec_cons_some hrun
      obtain rfl : approvalStep codec s call = next := Option.some.inj hstep
      rcases ih hrest with hfirst | ⟨record, approverId, hgranted, hclaims⟩
      · rcases issued_of_step codec hfirst with hold | ⟨record, approverId, now, rfl, hfound,
          hresult, hclaims⟩
        · exact .inl hold
        · exact .inr ⟨record, approverId, ⟨[], rest, now, s, rfl, rfl, hfound, hresult⟩, hclaims⟩
      · obtain ⟨before, after, decidedAt, mid, rfl, hmid, hfound, hresult⟩ := hgranted
        refine .inr ⟨record, approverId, ⟨call :: before, after, decidedAt, mid, rfl, ?_, hfound,
          hresult⟩, hclaims⟩
        rw [exec_cons_of_step _ hstep]
        exact hmid

/-- **A token runs the action it was issued for.**  When `consume` accepts a
token, the approver granted, earlier in the run, a record of this very action
that has not expired. -/
theorem consume_bound {s t : ApprovalState Token} {calls : List (ApprovalCall Token)}
    (hstart : (approvalMachine codec).Start s)
    (hrun : exec (approvalMachine codec) s calls = some t) {action : ProposedAction}
    {token : Token} {approverId : Nat} {now : Int}
    (hhash : HashSeparates codec action) (hunforged : Unforged codec t.issued token)
    (hok : Accepts codec t.files action token approverId now) :
    ∃ record issued, GrantedDuring codec s calls record approverId issued ∧
      record.action = action ∧ now < record.expiresAt := by
  obtain ⟨claims, hok⟩ := hok
  obtain ⟨message, hrefused⟩ | ⟨read, record, haccepted, hverified, -, -⟩ :=
    consume_cases codec t.files action token approverId now
  · rw [hrefused] at hok
    cases hok
  rw [haccepted] at hok
  obtain rfl := Except.ok.inj hok
  obtain ⟨hread, hlive, ⟨hid, hdigest⟩, -, -, happrover⟩ :=
    (verifyApprovalToken_eq_ok codec).mp hverified
  obtain ⟨x, hx, rfl⟩ := hunforged.issued codec hread
  rcases issued_granted codec hrun hx with hold | ⟨granted, approver, hgranted, hclaims⟩
  · rw [hstart.2.1] at hold
    cases hold
  · rw [hclaims] at hid hdigest happrover hlive
    obtain rfl : approver = approverId := happrover
    exact ⟨granted, x.1, hgranted, ProposedAction.ext_content hid (hhash _ hdigest), hlive⟩

/-! ### When an issued token is accepted -/

/-- This call is a `consume` that accepts some token of the action id. -/
def Spends (approvalId : Nat) (s : ApprovalState Token) (call : ApprovalCall Token) : Prop :=
  ∃ action token approverId now claims, call = .consume action token approverId now ∧
    (consume codec s.files action token approverId now).1 = .ok claims ∧
      claims.approvalId = approvalId

/-- This call is not a `create` or `decide` that rewrites the record. -/
def Unwritten (approvalId : Nat) (s : ApprovalState Token) (call : ApprovalCall Token)
    (t : ApprovalState Token) : Prop :=
  (∃ action token approverId now, call = .consume action token approverId now) ∨
    getRecord t.files approvalId = getRecord s.files approvalId

/-- A `consume` keeps a record that it does not spend, and spends a granted one. -/
theorem consume_record (s : ApprovalState Token) {approvalId : Nat} {record : ApprovalRecord}
    (hfound : getRecord s.files approvalId = some record) (action : ProposedAction) (token : Token)
    (approverId : Nat) (now : Int) :
    (¬ Spends codec approvalId s (.consume action token approverId now) ∧
        getRecord (approvalStep codec s (.consume action token approverId now)).files approvalId =
          some record) ∨
      (Spends codec approvalId s (.consume action token approverId now) ∧
        record.status = .granted ∧
        getRecord (approvalStep codec s (.consume action token approverId now)).files approvalId =
          some { record with status := .consumed }) := by
  obtain ⟨message, hrefused⟩ | ⟨claims, old, haccepted, -, hold, hgranted⟩ :=
    consume_cases codec s.files action token approverId now
  · left
    refine ⟨?_, by simpa only [approvalStep, hrefused] using hfound⟩
    rintro ⟨_, _, _, _, claims, hcall, hok, -⟩
    obtain ⟨rfl, rfl, rfl, rfl⟩ := ApprovalCall.consume.inj hcall
    rw [hrefused] at hok
    cases hok
  · have hid := approvalId_of_getRecord hold
    have hafter : getRecord (approvalStep codec s
        (.consume action token approverId now)).files approvalId =
        if claims.approvalId = approvalId then some { old with status := .consumed }
        else getRecord s.files approvalId := by
      simp only [approvalStep, haccepted]
      rw [getRecord_writeRecord, hid]
    by_cases hspent : claims.approvalId = approvalId
    · right
      rw [hspent, hfound] at hold
      obtain rfl := Option.some.inj hold
      rw [if_pos hspent] at hafter
      exact ⟨⟨action, token, approverId, now, claims, rfl, by rw [haccepted], hspent⟩, hgranted,
        hafter⟩
    · left
      rw [if_neg hspent, hfound] at hafter
      refine ⟨?_, hafter⟩
      rintro ⟨_, _, _, _, other, hcall, hok, hother⟩
      obtain ⟨rfl, rfl, rfl, rfl⟩ := ApprovalCall.consume.inj hcall
      rw [haccepted] at hok
      obtain rfl := Except.ok.inj hok
      exact hspent hother

/-- A call that neither rewrites nor spends the record keeps it. -/
theorem record_kept {s : ApprovalState Token} {call : ApprovalCall Token} {approvalId : Nat}
    {record : ApprovalRecord} (hfound : getRecord s.files approvalId = some record)
    (hunwritten : Unwritten approvalId s call (approvalStep codec s call))
    (hunspent : ¬ Spends codec approvalId s call) :
    getRecord (approvalStep codec s call).files approvalId = some record := by
  rcases hunwritten with ⟨action, token, approverId, now, rfl⟩ | hsame
  · rcases consume_record codec s hfound action token approverId now with
      ⟨-, hkept⟩ | ⟨hspent, -, -⟩
    · exact hkept
    · exact absurd hspent hunspent
  · exact hsame.trans hfound

/-- A record that is over stays over. -/
theorem record_consumed {s t : ApprovalState Token} {calls : List (ApprovalCall Token)}
    {approvalId : Nat} {record : ApprovalRecord}
    (hfound : getRecord s.files approvalId = some record) (hover : record.status ≠ .granted)
    (hunwritten : StepsMeet (approvalMachine codec) (Unwritten approvalId) s calls)
    (hrun : exec (approvalMachine codec) s calls = some t) :
    getRecord t.files approvalId = some record := by
  induction calls generalizing s with
  | nil =>
      obtain rfl : s = t := by simpa using hrun
      exact hfound
  | cons call rest ih =>
      obtain ⟨next, hstep, hrest⟩ := exec_cons_some hrun
      have hhead := hunwritten.head hstep
      have htail := hunwritten.tail hstep
      obtain rfl : approvalStep codec s call = next := Option.some.inj hstep
      refine ih (record_kept codec hfound hhead ?_) htail hrest
      rintro ⟨action, token, approverId, now, claims, rfl, hok, hid⟩
      rcases consume_record codec s hfound action token approverId now with
        ⟨hunspent, -⟩ | ⟨-, hgranted, -⟩
      · exact hunspent ⟨action, token, approverId, now, claims, rfl, hok, hid⟩
      · exact hover hgranted

/-- **A granted record stays granted exactly as long as no token of its id is
accepted.** -/
theorem record_granted_iff {s t : ApprovalState Token} {calls : List (ApprovalCall Token)}
    {approvalId : Nat} {record : ApprovalRecord}
    (hfound : getRecord s.files approvalId = some record) (hgranted : record.status = .granted)
    (hunwritten : StepsMeet (approvalMachine codec) (Unwritten approvalId) s calls)
    (hrun : exec (approvalMachine codec) s calls = some t) :
    (∃ after, getRecord t.files approvalId = some after ∧ after.status = .granted) ↔
      StepsMeet (approvalMachine codec) (fun s call _ => ¬ Spends codec approvalId s call) s
        calls := by
  induction calls generalizing s with
  | nil =>
      obtain rfl : s = t := by simpa using hrun
      exact iff_of_true ⟨record, hfound, hgranted⟩ trivial
  | cons call rest ih =>
      obtain ⟨next, hstep, hrest⟩ := exec_cons_some hrun
      have hhead := hunwritten.head hstep
      have htail := hunwritten.tail hstep
      have hnext : approvalStep codec s call = next := Option.some.inj hstep
      by_cases hspent : Spends codec approvalId s call
      · refine iff_of_false ?_ (fun h => h.head hstep hspent)
        obtain ⟨action, token, approverId, now, claims, rfl, hok, hid⟩ := hspent
        rcases consume_record codec s hfound action token approverId now with
          ⟨hunspent, -⟩ | ⟨-, -, hconsumed⟩
        · exact absurd ⟨action, token, approverId, now, claims, rfl, hok, hid⟩ hunspent
        · rw [hnext] at hconsumed
          have hend := record_consumed codec hconsumed (by simp) htail hrest
          rintro ⟨after, hafter, hstill⟩
          rw [hend] at hafter
          obtain rfl := Option.some.inj hafter
          cases hstill
      · subst hnext
        rw [ih (record_kept codec hfound hhead hspent) htail hrest]
        exact ⟨fun h next hnext => ⟨hspent, Option.some.inj (hstep.symm.trans hnext) ▸ h⟩,
          fun h => h.tail hstep⟩

/-- What a granting `decide` leaves, and what its token reads as. -/
theorem decide_granted {files : ApprovalFiles} {record : ApprovalRecord} {approverId : Nat}
    {now : Int} {token : Token} (hfound : getRecord files record.approvalId = some record)
    (hok : (decide codec files record.approvalId approverId true now).1 = .ok (some token)) :
    (decide codec files record.approvalId approverId true now).2 =
        writeRecord files { record with status := .granted } ∧
      record.approverId = approverId ∧
      readToken codec token = .ok (record.claims codec approverId) := by
  have hcases := decide_cases codec files record.approvalId approverId true now
  generalize decide codec files record.approvalId approverId true now = result at hok hcases ⊢
  cases hcases with
  | refused message => cases hok
  | expired found record happrover hlate => cases hok
  | rejected found record hpending => cases Except.ok.inj hok
  | unsigned found message record hpending => cases hok
  | granted found issuedToken hfound' happrover hpending hissued =>
      obtain rfl := Option.some.inj (hfound.symm.trans hfound')
      obtain rfl := Option.some.inj (Except.ok.inj hok)
      exact ⟨rfl, happrover, readToken_of_issued codec hissued⟩

/-- **An issued token is accepted exactly when its id is unspent.**  After a
`decide` that issued the token, and calls none of which rewrites the record,
`consume` accepts the token for its action and approver before the expiry if
and only if no token of this action id was accepted in between. -/
theorem issued_token_accepted_iff {s decided t : ApprovalState Token} {record : ApprovalRecord}
    {approverId : Nat} {decidedAt now : Int} {token : Token}
    {calls : List (ApprovalCall Token)}
    (hfound : getRecord s.files record.approvalId = some record)
    (hok : (decide codec s.files record.approvalId approverId true decidedAt).1 =
      .ok (some token))
    (hdecided : approvalStep codec s (.decide record.approvalId approverId true decidedAt) =
      decided)
    (hunwritten : StepsMeet (approvalMachine codec) (Unwritten record.approvalId) decided calls)
    (hrun : exec (approvalMachine codec) decided calls = some t) (hlive : now < record.expiresAt) :
    Accepts codec t.files record.action token approverId now ↔
      StepsMeet (approvalMachine codec)
        (fun s call _ => ¬ Spends codec record.approvalId s call) decided calls := by
  obtain ⟨hfiles, -, hread⟩ := decide_granted codec hfound hok
  have hfound' : getRecord decided.files record.approvalId =
      some { record with status := .granted } := by
    rw [← hdecided]
    simp only [approvalStep, hfiles]
    rw [getRecord_writeRecord]
    exact if_pos rfl
  have hverified : verifyApprovalToken codec token record.action approverId now =
      .ok (record.claims codec approverId) :=
    (verifyApprovalToken_eq_ok codec).mpr
      ⟨hread, hlive, ⟨⟨rfl, rfl⟩, ⟨rfl, rfl⟩, rfl, rfl⟩⟩
  rw [← record_granted_iff codec hfound' rfl hunwritten hrun]
  constructor
  · rintro ⟨claims, haccepted⟩
    obtain ⟨message, hrefused⟩ | ⟨read, old, -, hread', hold, hgranted⟩ :=
      consume_cases codec t.files record.action token approverId now
    · rw [hrefused] at haccepted
      cases haccepted
    · rw [hverified] at hread'
      obtain rfl := Except.ok.inj hread'
      exact ⟨old, hold, hgranted⟩
  · rintro ⟨after, hafter, hgranted⟩
    exact ⟨_, consume_accepts hverified hafter hgranted⟩

/-- **Approval binding.**  After every run: what `consume` accepts was granted
in the run, by this approver, for this very action, and has not expired; and
the token of a grant, whose record no later call rewrote, is accepted for its
action and approver before the expiry exactly when no token of this action id
was accepted since the grant. -/
theorem approval_binding {s t : ApprovalState Token} {calls : List (ApprovalCall Token)}
    (hstart : (approvalMachine codec).Start s)
    (hrun : exec (approvalMachine codec) s calls = some t) :
    (∀ action token approverId now, HashSeparates codec action →
      Unforged codec t.issued token → Accepts codec t.files action token approverId now →
      ∃ record issued, GrantedDuring codec s calls record approverId issued ∧
        record.action = action ∧ now < record.expiresAt) ∧
    ∀ before after decidedAt approverId record token granting decided now,
      calls = before ++ .decide record.approvalId approverId true decidedAt :: after →
      exec (approvalMachine codec) s before = some granting →
      getRecord granting.files record.approvalId = some record →
      (decide codec granting.files record.approvalId approverId true decidedAt).1 =
        .ok (some token) →
      approvalStep codec granting (.decide record.approvalId approverId true decidedAt) =
        decided →
      StepsMeet (approvalMachine codec) (Unwritten record.approvalId) decided after →
      now < record.expiresAt →
      (Accepts codec t.files record.action token approverId now ↔
        StepsMeet (approvalMachine codec)
          (fun s call _ => ¬ Spends codec record.approvalId s call) decided after) := by
  refine ⟨fun action token approverId now hhash hunforged hok =>
    consume_bound codec hstart hrun hhash hunforged hok, ?_⟩
  intro before after decidedAt approverId record token granting decided now hcalls hbefore hfound
    hok hdecided hunwritten hlive
  refine issued_token_accepted_iff codec hfound hok hdecided hunwritten ?_ hlive
  have hstep : (approvalMachine codec).step granting
      (.decide record.approvalId approverId true decidedAt) = some decided := by rw [← hdecided]; rfl
  rw [hcalls, exec_append _ hbefore, exec_cons_of_step _ hstep] at hrun
  exact hrun

/-- The plain codec, with a digest that tells the action to restart a service
from every other. -/
def restartCodec : TokenCodec (ApprovalClaims × ApprovalClaims) ApprovalClaims :=
  { plainCodec with
    actionHash := fun action =>
      if action.content = restartService.action.content then "restart" else "other" }

/-- The action is approved, and the token presented. -/
theorem approval_binding_restart :
    ∃ t token, exec (approvalMachine restartCodec) {}
        [.create restartService 1 2 0 0, .decide 1 2 true 1] = some t ∧
      Accepts restartCodec t.files restartService.action token 2 2 ∧
      ∃ record issued, GrantedDuring restartCodec {}
          [.create restartService 1 2 0 0, .decide 1 2 true 1] record 2 issued ∧
        record.action = restartService.action ∧ 2 < record.expiresAt := by
  let record := restartService.approval 1 2 0 0
  let token := (record.claims restartCodec 2, record.claims restartCodec 2)
  have hboth := @approval_binding _ _ _ restartCodec {} _
    [.create restartService 1 2 0 0, .decide 1 2 true 1] ⟨rfl, rfl, rfl⟩ rfl
  have hok := (hboth.2 [.create restartService 1 2 0 0] [] 1 2 record token _ _ 2 rfl rfl rfl rfl
    rfl trivial (by decide)).mpr trivial
  refine ⟨_, token, rfl, hok, hboth.1 _ token 2 2 ?_ ?_ hok⟩
  · intro other hhash
    by_cases hsame : other.content = restartService.action.content
    · exact hsame
    · exfalso
      simp only [restartCodec, if_neg hsame, if_true] at hhash
      exact absurd hhash (by decide)
  · intro body signature hsplit hsignature
    obtain ⟨rfl, rfl⟩ := Prod.mk.inj (Option.some.inj hsplit)
    exact ⟨(token, record.claims restartCodec 2), List.mem_singleton.mpr rfl, rfl⟩

/-- The action is taken up again while the token of its first approval is good,
and that token spends the second approval. -/
def crossedApprovals : List (ApprovalCall (ApprovalClaims × ApprovalClaims)) :=
  [.create restartService 1 2 0 0, .decide 1 2 true 1, .create restartService 1 2 2 2]

/-- **An older token spends the new approval.**  The new token has not expired,
was never accepted, and no call rewrote its record, and still it is refused. -/
theorem crossed_token_refused :
    let record := restartService.approval 1 2 2 2
    let fresh := restartToken 300000002
    ∃ granting decided t,
      exec (approvalMachine plainCodec) {} crossedApprovals = some granting ∧
      getRecord granting.files 1 = some record ∧
      (decide plainCodec granting.files 1 2 true 3).1 = .ok (some fresh) ∧
      approvalStep plainCodec granting (.decide 1 2 true 3) = decided ∧
      exec (approvalMachine plainCodec) decided
        [.consume restartService.action (restartToken 300000000) 2 4] = some t ∧
      StepsMeet (approvalMachine plainCodec) (Unwritten 1) decided
        [.consume restartService.action (restartToken 300000000) 2 4] ∧
      fresh ∉ t.accepted.map Prod.fst ∧ 5 < record.expiresAt ∧
      ¬ Accepts plainCodec t.files restartService.action fresh 2 5 := by
  refine ⟨_, _, _, rfl, rfl, rfl, rfl, rfl, ?_, by decide, by decide, ?_⟩
  · exact fun _ _ => ⟨.inl ⟨_, _, _, _, rfl⟩, trivial⟩
  · rintro ⟨claims, hok⟩
    cases hok

end Workbench.Approvals
