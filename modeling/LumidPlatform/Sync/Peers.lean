import LumidPlatform.Sync.Ledger

/-!
# Who shares a ledger

The name of a peer is the subject of a Lumid identity or comes from the label of a local key,
and the ledger goes by that name alone. Three credentials have one name, one of each form; two
of one form never do. A duplicate was applied before, for a credential of the same name.
-/

namespace LumidPlatform.Sync.Peers

open Transitions

variable {D : Type} {unicode : Unicode} {labels : List Str} {target : Target D} {s s' : State D}
  {role sub role' sub' peer batchId : Str}

/-! ## Credentials -/

/-- Where a peer's name may stand in its credential. -/
inductive Form where
  /-- The subject of a Lumid identity of the role `sync_peer`. -/
  | lumid
  /-- The label of a local key, after `sync:`. -/
  | prefixed
  /-- The label of a local key that is in the allowlist. -/
  | bare
  deriving DecidableEq

/-- The role and the subject of a peer's credential. -/
def Form.credential (peer : Str) : Form → Str × Str
  | lumid => ("sync_peer".str, peer)
  | prefixed => ("local".str, "local:".str ++ ("sync:".str ++ peer))
  | bare => ("local".str, "local:".str ++ peer)

/-- The settings accept the credential, and under this name. -/
def Form.accepted (labels : List Str) (peer : Str) : Form → Bool
  | lumid => true
  | prefixed => labels.isEmpty || labels.contains ("sync:".str ++ peer)
  | bare => labels.contains peer && !Text.startsWith peer "sync:".str

theorem stripPrefix_eq_some {s word rest : Str} :
    Text.stripPrefix s word = some rest ↔ s = word ++ rest := by
  rw [Text.stripPrefix, Text.startsWith]
  constructor
  · intro stripped
    split_ifs at stripped with starts
    obtain ⟨after, rfl⟩ := List.isPrefixOf_iff_prefix.mp starts
    rw [List.drop_left] at stripped
    rw [Option.some.inj stripped]
  · rintro rfl
    rw [if_pos (List.isPrefixOf_iff_prefix.mpr (List.prefix_append _ _)), List.drop_left]

/-- The label of a local key names the peer with or without the prefix. -/
theorem labelled_iff {label : Str} :
    ((if labels.isEmpty then Text.startsWith label "sync:".str else labels.contains label) = true ∧
        (Text.stripPrefix label "sync:".str).getD label = peer) ↔
      (label = "sync:".str ++ peer ∧ Form.prefixed.accepted labels peer = true) ∨
        (label = peer ∧ Form.bare.accepted labels peer = true) := by
  cases stripped : Text.stripPrefix label "sync:".str with
  | some rest =>
    obtain rfl := stripPrefix_eq_some.mp stripped
    have starts : Text.startsWith ("sync:".str ++ rest) "sync:".str = true :=
      List.isPrefixOf_iff_prefix.mpr (List.prefix_append _ _)
    rw [starts, Option.getD_some, List.append_cancel_left_eq]
    constructor
    · rintro ⟨allowed, rfl⟩
      refine .inl ⟨rfl, ?_⟩
      cases labels with
      | nil => rfl
      | cons first others => simpa [Form.accepted] using allowed
    · rintro (⟨rfl, accepted⟩ | ⟨rfl, accepted⟩)
      · refine ⟨?_, rfl⟩
        cases labels with
        | nil => rfl
        | cons first others => simpa [Form.accepted] using accepted
      · rw [Form.accepted, starts, Bool.not_true, Bool.and_false] at accepted
        cases accepted
  | none =>
    have starts : Text.startsWith label "sync:".str = false := by
      rw [Text.stripPrefix] at stripped
      split_ifs at stripped with starts
      exact Bool.eq_false_iff.mpr starts
    rw [starts, Option.getD_none]
    constructor
    · rintro ⟨allowed, rfl⟩
      refine .inr ⟨rfl, ?_⟩
      cases labels with
      | nil => cases allowed
      | cons first others => simpa [Form.accepted, starts] using allowed
    · rintro (⟨rfl, -⟩ | ⟨rfl, accepted⟩)
      · rw [Text.startsWith, List.isPrefixOf_iff_prefix.mpr (List.prefix_append _ _)] at starts
        cases starts
      · refine ⟨?_, rfl⟩
        cases labels with
        | nil => cases accepted
        | cons first others =>
          rw [Form.accepted, Bool.and_eq_true] at accepted
          exact accepted.1

/-- A credential is one of the three forms: a Lumid identity, or a local key of either label. -/
theorem credential_iff : (∃ form : Form, form.accepted labels peer = true ∧
      (role, sub) = form.credential peer) ↔
    (role = "sync_peer".str ∧ sub = peer) ∨
      (role = "local".str ∧ ∃ label, sub = "local:".str ++ label ∧
        ((label = "sync:".str ++ peer ∧ Form.prefixed.accepted labels peer = true) ∨
          (label = peer ∧ Form.bare.accepted labels peer = true))) := by
  constructor
  · rintro ⟨form, accepted, same⟩
    obtain ⟨rfl, rfl⟩ := Prod.mk.inj same
    cases form with
    | lumid => exact .inl ⟨rfl, rfl⟩
    | prefixed => exact .inr ⟨rfl, _, rfl, .inl ⟨rfl, accepted⟩⟩
    | bare => exact .inr ⟨rfl, _, rfl, .inr ⟨rfl, accepted⟩⟩
  · rintro (⟨rfl, rfl⟩ | ⟨rfl, label, rfl, ⟨rfl, accepted⟩ | ⟨rfl, accepted⟩⟩)
    · exact ⟨.lumid, rfl, rfl⟩
    · exact ⟨.prefixed, accepted, rfl⟩
    · exact ⟨.bare, accepted, rfl⟩

/-- `peer_from` accepts a credential under a name exactly if it is one of the three with that
name, and the settings accept it. -/
theorem peerFrom_iff : peerFrom labels role sub = some peer ↔
    ∃ form : Form, form.accepted labels peer = true ∧ (role, sub) = form.credential peer := by
  rw [peerFrom, credential_iff]
  by_cases lumid : role = "sync_peer".str
  · have remote : role ≠ "local".str := by
      rintro rfl
      exact absurd lumid (by decide)
    rw [if_pos lumid, Option.some.injEq]
    constructor
    · exact fun same => .inl ⟨lumid, same⟩
    · exact fun either => (either.resolve_right (fun both => remote both.1)).2
  · rw [if_neg lumid]
    by_cases onSite : role = "local".str
    · rw [if_pos onSite]
      cases stripped : Text.stripPrefix sub "local:".str with
      | none =>
        refine iff_of_false (fun impossible => by cases impossible) ?_
        rintro (⟨remote, -⟩ | ⟨-, label, rfl, -⟩)
        · exact lumid remote
        · rw [stripPrefix_eq_some.mpr rfl] at stripped
          cases stripped
      | some label =>
        obtain rfl := stripPrefix_eq_some.mp stripped
        dsimp only
        rw [Option.ite_none_right_eq_some, Option.some.injEq, labelled_iff]
        constructor
        · exact fun named => .inr ⟨onSite, label, rfl, named⟩
        · rintro (⟨remote, -⟩ | ⟨-, other, same, named⟩)
          · exact absurd remote lumid
          · obtain rfl := List.append_cancel_left same
            exact named
    · rw [if_neg onSite]
      refine iff_of_false (fun impossible => by cases impossible) ?_
      rintro (⟨remote, -⟩ | ⟨here, -⟩)
      · exact lumid remote
      · exact onSite here

/-- Two forms of one name are two credentials. -/
theorem credential_injective (peer : Str) : Function.Injective (Form.credential peer) := by
  have roles : "sync_peer".str ≠ "local".str := by decide
  have lengths (rest : Str) : "sync:".str ++ rest ≠ rest := by
    intro same
    have length := congrArg List.length same
    rw [List.length_append] at length
    have five : "sync:".str.length = 5 := rfl
    omega
  intro form form' same
  obtain ⟨sameRole, sameSub⟩ := Prod.mk.inj same
  cases form with
  | lumid =>
    cases form' with
    | lumid => rfl
    | prefixed => exact absurd sameRole roles
    | bare => exact absurd sameRole roles
  | prefixed =>
    cases form' with
    | lumid => exact absurd sameRole.symm roles
    | prefixed => rfl
    | bare => exact absurd (List.append_cancel_left sameSub) (lengths peer)
  | bare =>
    cases form' with
    | lumid => exact absurd sameRole.symm roles
    | prefixed => exact absurd (List.append_cancel_left sameSub).symm (lengths peer)
    | bare => rfl

/-! ## Where a duplicate comes from -/

/-- The answer to a delivery that was applied, as the batch of a peer. -/
def Applied (labels : List Str) (peer batchId : Str) (answer : Answer) : Prop :=
  peerFrom labels answer.delivery.identity.role answer.delivery.identity.sub = some peer ∧
    answer.delivery.body.batchId = batchId ∧
    ∃ ack, answer.result = .ok ack ∧ ack.duplicate = false

/-- What a delivery in flight is of the peer it was admitted for. -/
def Flight.Named (labels : List Str) : Flight → Prop
  | .admitted peer delivery | .applied peer delivery _ =>
    peerFrom labels delivery.identity.role delivery.identity.sub = some peer

/-- The answers before any duplicate hold the one it repeats, and those so far hold the one
of each row of the ledger. -/
structure Traced (labels : List Str) (s : State D) : Prop where
  ledger : ∀ row ∈ s.ledger, ∃ answer ∈ s.answers, Applied labels row.peer row.batchId answer
  answers : ∀ before answer after, s.answers = before ++ answer :: after →
    ∀ ack, answer.result = .ok ack → ack.duplicate = true → ∃ peer,
      peerFrom labels answer.delivery.identity.role answer.delivery.identity.sub = some peer ∧
        ∃ earlier ∈ before, Applied labels peer answer.delivery.body.batchId earlier
  flights : ∀ n flight, s.flights n = some flight → Flight.Named labels flight

theorem traced_start (db : D) : Traced labels (start db) where
  ledger _ member := by cases member
  answers before answer after split := by simp [start] at split
  flights _ _ flying := by cases flying

/-- A step that answers one delivery, whose row, if one is new, is of that answer. -/
theorem Traced.answer (traced : Traced labels s) (n : Nat) (delivery : Delivery)
    (result : ApiResult SyncAck) {ledger : List LedgerRow}
    (listed : ∀ row ∈ ledger, row ∈ s.ledger ∨
      Applied labels row.peer row.batchId ⟨delivery, result⟩)
    (duplicate : ∀ ack, result = .ok ack → ack.duplicate = true → ∃ peer,
      peerFrom labels delivery.identity.role delivery.identity.sub = some peer ∧
        ∃ row ∈ s.ledger, row.peer = peer ∧ row.batchId = delivery.body.batchId) :
    Traced labels ({ s with ledger }.answer n delivery result) where
  ledger row member := by
    rcases listed row member with old | new
    · obtain ⟨answer, earlier, applied⟩ := traced.ledger row old
      exact ⟨answer, List.mem_append_left _ earlier, applied⟩
    · exact ⟨_, List.mem_append_right _ (List.mem_singleton_self _), new⟩
  answers before answer after split ack answered duplicated := by
    rcases List.append_eq_append_iff.mp split with ⟨middle, rfl, last⟩ | ⟨middle, whole, last⟩
    · cases middle with
      | nil =>
        obtain ⟨rfl, -⟩ := List.cons.inj last
        obtain ⟨peer, named, row, member, rfl, sameBatch⟩ := duplicate ack answered duplicated
        obtain ⟨earlier, inAnswers, applied⟩ := traced.ledger row member
        rw [sameBatch] at applied
        exact ⟨_, named, earlier, List.mem_append_left _ inAnswers, applied⟩
      | cons first rest => simp at last
    · cases middle with
      | nil =>
        obtain ⟨rfl, -⟩ := List.cons.inj last
        rw [List.append_nil] at whole
        subst whole
        obtain ⟨peer, named, row, member, rfl, sameBatch⟩ := duplicate ack answered duplicated
        obtain ⟨earlier, inAnswers, applied⟩ := traced.ledger row member
        rw [sameBatch] at applied
        exact ⟨_, named, earlier, inAnswers, applied⟩
      | cons first rest =>
        obtain ⟨rfl, -⟩ := List.cons.inj last
        exact traced.answers before _ rest whole ack answered duplicated
  flights m flight flying := by
    by_cases here : m = n
    · subst here
      simp [State.answer] at flying
    · exact traced.flights m flight (by simpa [State.answer, here] using flying)

/-- A step that only moves one delivery on, or drops it. -/
theorem Traced.moved (traced : Traced labels s) (db : D) (processed : List Processed) (n : Nat)
    {flight : Option Flight} (named : ∀ next, flight = some next → Flight.Named labels next) :
    Traced labels { s with db, processed, flights := Function.update s.flights n flight } where
  ledger := traced.ledger
  answers := traced.answers
  flights m other flying := by
    by_cases here : m = n
    · subst here
      exact named other (by simpa using flying)
    · exact traced.flights m other (by simpa [here] using flying)

theorem traced_step {label : Label D} (traced : Traced labels s)
    (taken : step unicode labels target s label = some s') : Traced labels s' := by
  cases label with
  | arrive n delivery =>
    rw [step] at taken
    split at taken
    · obtain rfl := Option.some.inj taken
      rw [arrive]
      split
      · exact traced.answer n delivery _ (fun _ => .inl) (fun _ impossible => by cases impossible)
      · rename_i peer ack admitted
        obtain ⟨named, listed⟩ := Ledger.admit_ok admitted
        exact traced.answer n delivery _ (fun _ => .inl) (fun _ _ _ => ⟨peer, named, listed rfl⟩)
      · rename_i peer admitted
        apply traced.moved s.db s.processed n
        rintro _ ⟨⟩
        exact (Ledger.admit_ok admitted).1
    · cases taken
  | apply n =>
    rw [step] at taken
    split at taken
    · rename_i peer delivery flying
      have named := traced.flights n _ flying
      obtain rfl := Option.some.inj taken
      rw [apply]
      split
      · rename_i error db failed
        have after : Traced labels { s with db } := ⟨traced.ledger, traced.answers, traced.flights⟩
        exact after.answer n delivery _ (fun _ => .inl) (fun _ impossible => by cases impossible)
      · rename_i result db applied
        have after : Traced labels { s with
            db
            processed := s.processed ++ [⟨peer, delivery.body.batchId, result.failed⟩] } :=
          ⟨traced.ledger, traced.answers, traced.flights⟩
        dsimp only
        split_ifs with refused
        · exact after.answer n delivery _ (fun _ => .inl) (fun _ impossible => by cases impossible)
        · apply after.moved db _ n
          rintro _ ⟨⟩
          exact named
    · cases taken
  | record n =>
    rw [step] at taken
    split at taken
    · rename_i peer delivery result flying
      have named := traced.flights n _ flying
      obtain rfl := Option.some.inj taken
      refine traced.answer n delivery _ (fun row member => ?_) (fun ack answered duplicated => ?_)
      · rw [insertLedger] at member
        split_ifs at member
        · exact .inl member
        · refine (List.mem_append.mp member).imp_right (fun new => ?_)
          obtain rfl := List.mem_singleton.mp new
          exact ⟨named, rfl, _, rfl, rfl⟩
      · obtain rfl := Except.ok.inj answered
        cases duplicated
    · cases taken
  | lose n =>
    obtain rfl := Option.some.inj taken
    exact traced.moved s.db s.processed n (fun _ impossible => by cases impossible)
  | change db =>
    obtain rfl := Option.some.inj taken
    exact ⟨traced.ledger, traced.answers, traced.flights⟩

/-- Credentials of one name are those of the forms that the settings accept, and are the same
if and only if they have the same form. Where a batch is answered as a duplicate, an earlier
delivery of it was applied for a credential of that name. -/
theorem peers_by_form (unicode : Unicode) (labels : List Str) (target : Target D) (db : D) :
    (∀ role sub role' sub' peer, peerFrom labels role sub = some peer →
        peerFrom labels role' sub' = some peer → ∃ form form' : Form,
          (role, sub) = form.credential peer ∧ (role', sub') = form'.credential peer ∧
            ((role, sub) = (role', sub') ↔ form = form')) ∧
      (∀ (form : Form) peer, form.accepted labels peer = true ↔
        peerFrom labels (form.credential peer).1 (form.credential peer).2 = some peer) ∧
      ∀ s : State D, Reaches (step unicode labels target) (start db) s →
        ∀ before answer after, s.answers = before ++ answer :: after →
          ∀ ack, answer.result = .ok ack → ack.duplicate = true →
            ∃ earlier ∈ before, earlier.delivery.body.batchId = answer.delivery.body.batchId ∧
              (∃ ack, earlier.result = .ok ack ∧ ack.duplicate = false) ∧
              ∃ (peer : Str) (form form' : Form),
                (earlier.delivery.identity.role, earlier.delivery.identity.sub) =
                  form.credential peer ∧
                (answer.delivery.identity.role, answer.delivery.identity.sub) =
                  form'.credential peer := by
  refine ⟨fun role sub role' sub' peer one other => ?_, fun form peer => ?_, ?_⟩
  · obtain ⟨form, -, same⟩ := peerFrom_iff.mp one
    obtain ⟨form', -, same'⟩ := peerFrom_iff.mp other
    refine ⟨form, form', same, same', ?_⟩
    rw [same, same']
    exact (credential_injective peer).eq_iff
  · rw [peerFrom_iff]
    constructor
    · exact fun accepted => ⟨form, accepted, rfl⟩
    · rintro ⟨form', accepted, same⟩
      rwa [credential_injective peer same]
  · intro s reached before answer after split ack answered duplicated
    have traced : Traced labels s := reached.invariant (traced_start db)
      (fun _ _ _ traced taken => traced_step traced taken)
    obtain ⟨peer, named, earlier, member, namedToo, batch, applied⟩ :=
      traced.answers before answer after split ack answered duplicated
    obtain ⟨form, -, same⟩ := peerFrom_iff.mp namedToo
    obtain ⟨form', -, same'⟩ := peerFrom_iff.mp named
    exact ⟨earlier, member, batch, applied, peer, form, form', same, same'⟩

/-! ## One name, two credentials -/

/-- A local key labelled for the peer of the Lumid subject `p`. -/
def labelled : Identity := { sub := "local:sync:p".str, role := "local".str }

/-- A Lumid identity and a local key have one name: what the first one delivered is a duplicate
when the second delivers another batch of that id. -/
theorem credentials_share_ledger :
    ((peerFrom [] "sync_peer".str "p".str = some "p".str ∧
        peerFrom [] "local".str "local:sync:p".str = some "p".str) ∧
      ("sync_peer".str, "p".str) ≠ ("local".str, "local:sync:p".str)) ∧
    ∃ s, Reaches (step Unicode.ascii [] Ledger.onlyV) (start ()) s ∧
      Ledger.seen s = ([some ⟨"b".str, 1, 0, 0, false⟩, some ⟨"b".str, 1, 0, 0, true⟩], [0]) ∧
      s.answers.map (fun answer => (answer.delivery.identity.role, answer.delivery.identity.sub)) =
        [("sync_peer".str, "p".str), ("local".str, "local:sync:p".str)] := by
  refine ⟨by decide, ?_⟩
  have ran : (run (step Unicode.ascii [] Ledger.onlyV) (start ())
      [.arrive 0 (Ledger.sends [Ledger.good]), .apply 0, .record 0,
        .arrive 1 { Ledger.sends [Ledger.good, Ledger.good] with identity := labelled }]).map
      (fun s => (Ledger.seen s, s.answers.map
        (fun answer => (answer.delivery.identity.role, answer.delivery.identity.sub)))) =
      some (([some ⟨"b".str, 1, 0, 0, false⟩, some ⟨"b".str, 1, 0, 0, true⟩], [0]),
        [("sync_peer".str, "p".str), ("local".str, "local:sync:p".str)]) := by
    decide +kernel
  obtain ⟨s, reached, observed⟩ := Option.map_eq_some_iff.mp ran
  obtain ⟨outcome, identities⟩ := Prod.mk.inj observed
  exact ⟨s, ⟨_, reached⟩, outcome, identities⟩

end LumidPlatform.Sync.Peers
