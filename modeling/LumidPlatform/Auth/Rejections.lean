import LumidPlatform.Auth.Lumid

/-!
# Rejected tokens

A token is to be rejected because the service says that it is not known, and for no other
reason. When the service cannot answer, the request is to be told so, and nothing is to be
remembered. All statuses but 200 are taken for the service's word, though, and so is a body that
is not read; and where the service is disabled, every token is rejected without a word.
-/

namespace LumidPlatform.Auth.Lumid

open Transitions

variable {site : Site} {state next : State} {label : Label} {labels : List Label} {token : Str}

/-! ## What is promised -/

/-- What the service's answer tells of a token, where it is read. -/
def Sent.read (site : Site) : Sent → Option IntrospectData
  | .failed _ => none
  | .response status body =>
    if status = 200 then (body.bind site.readBody).map IntrospectBody.told else none

/-- The statuses of a request that the service refuses for what it is. -/
def refuses (status : Nat) : Bool :=
  400 ≤ status && status < 500 && status ≠ 408 && status ≠ 429

/-- The service says that the token is not known. -/
def Sent.definitive (site : Site) (sent : Sent) : Bool :=
  (sent.read site).any (fun told => !told.active) ||
    match sent with
    | .failed _ => false
    | .response status _ => refuses status

/-- The service has no answer. -/
def Sent.fault (site : Site) (sent : Sent) : Bool :=
  match sent with
  | .failed _ => true
  | .response status _ =>
    (500 ≤ status && status < 600) || status = 408 || status = 429 ||
      (status = 200 && (sent.read site).isNone)

/-- A step that rejects a token has the service's word for it: what it says now, or what it said
before. -/
def Backed (site : Site) (state : State) (token : Str) : Label → Prop
  | .reply _ sent => sent.definitive site = true
  | _ => ∃ sent, (token, sent) ∈ state.replied ∧ sent.definitive site = true

/-- Rejections have a reason, and a fault is neither taken for one nor remembered. -/
structure Honest (site : Site) (state : State) (label : Label) (next : State) : Prop where
  rejects : ∀ token error, answer site state label = some (token, .error error) →
    error.status = 401 → looksLikeToken token = true → Backed site state token label
  faults : ∀ i sent, label = .reply i sent → sent.fault site = true →
    ∃ token error, answer site state label = some (token, .error error) ∧ error.status = 503 ∧
      next.cache = state.cache
  again : ∀ i sent token, label = .reply i sent → sent.fault site = true →
    state.waiting[i]? = some token → remembered site state.cache token = none →
      remembered site next.cache token = none

/-- A run from nothing. The digests of the tokens that are presented in it are told apart, which
is what SHA-256 is for. -/
structure History (site : Site) where
  labels : List Label
  reached : State
  ran : run (step site) {} labels = some reached
  apart : ∀ headers headers' token token', .request headers ∈ labels → .request headers' ∈ labels →
    extractToken headers = some token → extractToken headers' = some token' →
      hash site token = hash site token' → token = token'

/-- Every step of the history is honest. -/
def History.Honest (history : History site) : Prop :=
  ∀ before label rest, history.labels = before ++ label :: rest → ∀ state next,
    run (step site) {} before = some state → step site state label = some next →
      Lumid.Honest site state label next

/-- The condition on what happens: a token that only the service can know is not presented where
it is disabled; and what the service answers is read, or refuses the request, where it answers. -/
def sound (site : Site) : Label → Bool
  | .request headers =>
    site.enabled || !(extractToken headers).any (fun token =>
      looksLikeToken token && (site.localKeys.lookup token).isNone)
  | .reply _ (.failed _) => true
  | .reply _ (.response status body) =>
    if status = 200 then ((Sent.response status body).read site).isSome else refuses status
  | .gone _ => true
  | .expire _ => true

/-! ## One answer -/

theorem refuses_bounds {status : Nat} (refused : refuses status = true) :
    400 ≤ status ∧ status < 500 ∧ status ≠ 408 ∧ status ≠ 429 := by
  simpa [refuses, and_assoc] using refused

theorem conclude_unauthorized {found : Except Str (Option Identity)} {error : ApiError}
    (failed : conclude found = .error error) : error.status = 401 ↔ found = .ok none := by
  cases found with
  | error cause =>
    obtain rfl := Except.error.inj failed
    simp [ApiError.status]
  | ok known =>
    cases known with
    | none =>
      obtain rfl := Except.error.inj failed
      simp [ApiError.status]
    | some identity => cases failed

/-- What a sent token comes to, by what is read of the answer. -/
theorem settle_cases (site : Site) (cache : Cache) (token : Str) (sent : Sent) :
    (∃ cause, sent = .failed cause ∧ settle site cache token sent = (cache, .error cause)) ∨
    (∃ status body, sent = .response status body ∧ status ≠ 200 ∧
      settle site cache token sent = (cache.insert (hash site token) none, .ok none)) ∨
    (∃ body, sent = .response 200 body ∧ sent.read site = none ∧
      settle site cache token sent = (cache, .ok none)) ∨
    (∃ body told, sent = .response 200 body ∧ sent.read site = some told ∧ told.active = false ∧
      settle site cache token sent = (cache.insert (hash site token) none, .ok none)) ∨
    (∃ body told, sent = .response 200 body ∧ sent.read site = some told ∧ told.active = true ∧
      settle site cache token sent = (cache.insert (hash site token) (some (identityOf told)),
        .ok (some (identityOf told)))) := by
  cases sent with
  | failed cause => exact Or.inl ⟨cause, rfl, rfl⟩
  | response status body =>
    right
    by_cases ok : status = 200
    · subst ok
      right
      cases found : body.bind site.readBody with
      | none =>
        refine Or.inl ⟨body, rfl, ?_, ?_⟩
        · simp [Sent.read, found]
        · simp [settle, found]
      | some read =>
        right
        cases active : read.told.active with
        | false =>
          refine Or.inl ⟨body, read.told, rfl, ?_, active, ?_⟩
          · simp [Sent.read, found]
          · simp [settle, found, active]
        | true =>
          refine Or.inr ⟨body, read.told, rfl, ?_, active, ?_⟩
          · simp [Sent.read, found]
          · simp [settle, found, active]
    · exact Or.inl ⟨status, body, rfl, ok, by simp [settle, ok]⟩

/-- A read answer that tells of an inactive token is definitive. -/
theorem definitive_of_read {sent : Sent} {told : IntrospectData}
    (read : sent.read site = some told) (inactive : told.active = false) :
    sent.definitive site = true := by
  simp [Sent.definitive, read, inactive]

theorem definitive_of_refuses {status : Nat} {body : Option Bytes}
    (refused : refuses status = true) :
    (Sent.response status body).definitive site = true := by
  simp only [Sent.definitive, refused, Bool.or_true]

/-- An answer that is not sound is rejected, and is not definitive. -/
theorem unsound_reply {sent : Sent} {i : Nat} (unsound : sound site (.reply i sent) = false)
    (cache : Cache) (token : Str) :
    (settle site cache token sent).2 = .ok none ∧ sent.definitive site = false := by
  obtain ⟨cause, rfl, -⟩ | ⟨status, body, rfl, other, settled⟩ | ⟨body, rfl, unread, settled⟩ |
    ⟨body, told, rfl, read, inactive, settled⟩ | ⟨body, told, rfl, read, active, settled⟩ :=
    settle_cases site cache token sent
  · cases unsound
  · have stated : refuses status = false := by
      rw [sound, if_neg other] at unsound
      exact unsound
    refine ⟨congrArg Prod.snd settled, ?_⟩
    simp [Sent.definitive, Sent.read, other, stated]
  · refine ⟨congrArg Prod.snd settled, ?_⟩
    rw [Sent.definitive, unread]
    rfl
  · simp [sound, read] at unsound
  · simp [sound, read] at unsound

/-- A sound answer is no fault, unless the service is not reached. -/
theorem sound_fault {sent : Sent} {i : Nat} (meets : sound site (.reply i sent) = true)
    (fault : sent.fault site = true) : ∃ cause, sent = .failed cause := by
  cases sent with
  | failed cause => exact ⟨cause, rfl⟩
  | response status body =>
    by_cases ok : status = 200
    · subst ok
      rw [sound, if_pos rfl, Option.isSome_iff_exists] at meets
      obtain ⟨told, read⟩ := meets
      simp [Sent.fault, read] at fault
    · rw [sound, if_neg ok] at meets
      have bounds := refuses_bounds meets
      simp [Sent.fault, ok] at fault
      omega

/-! ## What a run keeps -/

/-- Some request presents the token. -/
def Presented (labels : List Label) (token : Str) : Prop :=
  ∃ headers, .request headers ∈ labels ∧ extractToken headers = some token

/-- Only well-formed tokens that requests present are asked about, and none where the service is
disabled. -/
structure Tracked (site : Site) (labels : List Label) (state : State) : Prop where
  waiting : ∀ token ∈ state.waiting, Presented labels token ∧ looksLikeToken token = true
  replied : ∀ token sent, (token, sent) ∈ state.replied → Presented labels token
  disabled : site.enabled = false → state.waiting = [] ∧ state.replied = []

/-- A rejection that is remembered is that of a token of the digest. -/
def Remembers (site : Site) (state : State) : Prop :=
  ∀ key, state.cache.lookup key = some none → ∃ token sent, hash site token = key ∧
    (token, sent) ∈ state.replied ∧ sent.definitive site = true

/-- A request that asks presents a well-formed token to a service that is not disabled. -/
theorem asks_facts {cache : Cache} {headers : HeaderMap}
    (asks : resolveIdentity site cache headers = .asks token) :
    extractToken headers = some token ∧ looksLikeToken token = true ∧ site.enabled = true := by
  rw [resolveIdentity] at asks
  cases extracted : extractToken headers with
  | none =>
    rw [extracted] at asks
    cases asks
  | some found =>
    rw [extracted] at asks
    cases known : site.localKeys.lookup found with
    | some label =>
      simp only [known] at asks
      cases asks
    | none =>
      cases recalled : remembered site cache found with
      | some answer =>
        simp only [known, recalled] at asks
        cases asks
      | none =>
        simp only [known, recalled] at asks
        obtain rfl := Begun.asks.inj asks
        rw [remembered] at recalled
        split_ifs at recalled with unasked
        have both : looksLikeToken found = true ∧ site.enabled = true := by
          simpa [and_comm] using unasked
        exact ⟨rfl, both⟩

theorem Tracked.step (tracked : Tracked site labels state) (member : label ∈ labels)
    (stepped : step site state label = some next) : Tracked site labels next := by
  cases label with
  | request headers =>
    obtain rfl := Option.some.inj stepped
    rw [State.ask]
    cases begun : resolveIdentity site state.cache headers with
    | answered result => exact tracked
    | asks token =>
      obtain ⟨extracted, formed, enabled⟩ := asks_facts begun
      refine ⟨fun other inside => ?_, tracked.replied, fun disabled => ?_⟩
      · obtain before | here := List.mem_append.mp inside
        · exact tracked.waiting other before
        · obtain rfl := List.mem_singleton.mp here
          exact ⟨⟨headers, member, extracted⟩, formed⟩
      · rw [enabled] at disabled
        cases disabled
  | reply i sent =>
    obtain ⟨token, found, rfl⟩ := Option.map_eq_some_iff.mp stepped
    have inside := List.mem_of_getElem? found
    refine ⟨fun other left => tracked.waiting other (List.mem_of_mem_eraseIdx left),
      fun other said heard => ?_, fun disabled => ?_⟩
    · obtain here | before := List.mem_cons.mp heard
      · obtain ⟨rfl, rfl⟩ := Prod.mk.inj here
        exact (tracked.waiting other inside).1
      · exact tracked.replied other said before
    · rw [(tracked.disabled disabled).1] at inside
      cases inside
  | gone i =>
    obtain ⟨token, found, rfl⟩ := Option.map_eq_some_iff.mp stepped
    refine ⟨fun other left => tracked.waiting other (List.mem_of_mem_eraseIdx left),
      tracked.replied, fun disabled => ?_⟩
    have inside := List.mem_of_getElem? found
    rw [(tracked.disabled disabled).1] at inside
    cases inside
  | expire key =>
    obtain rfl := Option.some.inj stepped
    exact ⟨tracked.waiting, tracked.replied, tracked.disabled⟩

/-- A sound step remembers no rejection but a definitive one. -/
theorem Remembers.step (remembers : Remembers site state) (meets : sound site label = true)
    (stepped : step site state label = some next) : Remembers site next := by
  intro key kept
  cases label with
  | request headers =>
    obtain rfl := Option.some.inj stepped
    rw [State.ask] at kept ⊢
    cases begun : resolveIdentity site state.cache headers with
    | answered result =>
      rw [begun] at kept
      exact remembers key kept
    | asks token =>
      rw [begun] at kept
      exact remembers key kept
  | reply i sent =>
    obtain ⟨token, found, rfl⟩ := Option.map_eq_some_iff.mp stepped
    have before (old : state.cache.lookup key = some none) :
        ∃ other said, hash site other = key ∧ (other, said) ∈ (token, sent) :: state.replied ∧
          said.definitive site = true := by
      obtain ⟨other, said, digest, heard, word⟩ := remembers key old
      exact ⟨other, said, digest, List.mem_cons_of_mem _ heard, word⟩
    have now (word : sent.definitive site = true)
        (inserted : (state.cache.insert (hash site token) none).lookup key = some none) :
        ∃ other said, hash site other = key ∧ (other, said) ∈ (token, sent) :: state.replied ∧
          said.definitive site = true := by
      by_cases same : key = hash site token
      · exact ⟨token, sent, same.symm, List.mem_cons_self, word⟩
      · rw [AList.lookup_insert_ne same] at inserted
        exact before inserted
    obtain ⟨cause, rfl, settled⟩ | ⟨status, body, rfl, other, settled⟩ |
      ⟨body, rfl, unread, settled⟩ | ⟨body, told, rfl, read, inactive, settled⟩ |
      ⟨body, told, rfl, read, active, settled⟩ := settle_cases site state.cache token sent
    · rw [settled] at kept
      exact before kept
    · rw [settled] at kept
      rw [sound, if_neg other] at meets
      exact now (definitive_of_refuses meets) kept
    · rw [settled] at kept
      exact before kept
    · rw [settled] at kept
      exact now (definitive_of_read read inactive) kept
    · rw [settled] at kept
      by_cases same : key = hash site token
      · subst same
        rw [AList.lookup_insert] at kept
        cases Option.some.inj kept
      · rw [AList.lookup_insert_ne same] at kept
        exact before kept
  | gone i =>
    obtain ⟨token, found, rfl⟩ := Option.map_eq_some_iff.mp stepped
    exact remembers key kept
  | expire old =>
    obtain rfl := Option.some.inj stepped
    refine remembers key ?_
    by_cases same : key = old
    · subst same
      rw [AList.lookup_erase] at kept
      cases kept
    · rwa [AList.lookup_erase_ne same] at kept

/-! ## One step -/

/-- A request that is rejected at once presents no configured key; its token is not well-formed,
or the service is disabled, or the rejection is remembered. -/
theorem rejected_at_once {headers : HeaderMap} {error : ApiError}
    (answered : answer site state (.request headers) = some (token, .error error)) :
    extractToken headers = some token ∧ site.localKeys.lookup token = none ∧
      error.status = 401 ∧ (looksLikeToken token = true → site.enabled = true →
        state.cache.lookup (hash site token) = some none) := by
  rw [answer] at answered
  cases extracted : extractToken headers with
  | none =>
    rw [extracted] at answered
    cases answered
  | some found =>
    simp only [extracted, resolveIdentity] at answered
    cases known : site.localKeys.lookup found with
    | some label =>
      simp only [known, Option.some.injEq, Prod.mk.injEq] at answered
      cases answered.2
    | none =>
      simp only [known] at answered
      cases recalled : remembered site state.cache found with
      | none => simp [recalled] at answered
      | some answer =>
        simp only [recalled, Option.some.injEq, Prod.mk.injEq] at answered
        obtain ⟨rfl, concluded⟩ := answered
        cases answer with
        | some identity => cases concluded
        | none =>
          obtain rfl := Except.error.inj concluded
          refine ⟨rfl, known, rfl, fun formed enabled => ?_⟩
          rw [remembered, enabled, formed] at recalled
          exact recalled

/-- A request of a well-formed token is rejected at once where the service is disabled. -/
theorem answer_disabled {headers : HeaderMap} (disabled : site.enabled = false)
    (extracted : extractToken headers = some token)
    (foreign : site.localKeys.lookup token = none) :
    answer site state (.request headers) =
      some (token, .error (.unauthorized "invalid or unknown token".str)) := by
  simp [answer, extracted, resolveIdentity, foreign, remembered, disabled, conclude]

theorem honest_of_sound (tracked : Tracked site labels state) (remembers : Remembers site state)
    (apart : ∀ token token', Presented labels token → Presented labels token' →
      hash site token = hash site token' → token = token')
    (member : label ∈ labels) (meets : sound site label = true)
    (stepped : step site state label = some next) : Honest site state label next := by
  cases label with
  | request headers =>
    refine ⟨fun token error answered _ formed => ?_, nofun, nofun⟩
    obtain ⟨extracted, foreign, -, recalled⟩ := rejected_at_once answered
    have enabled : site.enabled = true := by
      rw [sound, extracted, Option.any_some, formed, foreign] at meets
      simpa using meets
    obtain ⟨other, sent, digest, heard, word⟩ := remembers _ (recalled formed enabled)
    obtain rfl := apart other token (tracked.replied other sent heard)
      ⟨headers, member, extracted⟩ digest
    exact ⟨sent, heard, word⟩
  | reply i sent =>
    obtain ⟨token, found, rfl⟩ := Option.map_eq_some_iff.mp stepped
    refine ⟨fun other error answered unauthorized _ => ?_, fun j said same fault => ?_,
      fun j said other same fault there unknown => ?_⟩
    · rw [answer, found, Option.map_some, Option.some.injEq, Prod.mk.injEq] at answered
      have rejected := (conclude_unauthorized answered.2).mp unauthorized
      obtain ⟨cause, rfl, settled⟩ | ⟨status, body, rfl, wrong, settled⟩ |
        ⟨body, rfl, unread, settled⟩ | ⟨body, told, rfl, read, inactive, settled⟩ |
        ⟨body, told, rfl, read, active, settled⟩ := settle_cases site state.cache token sent
      · rw [settled] at rejected
        cases rejected
      · rw [sound, if_neg wrong] at meets
        exact definitive_of_refuses meets
      · simp [sound, unread] at meets
      · exact definitive_of_read read inactive
      · rw [settled] at rejected
        cases rejected
    · obtain ⟨rfl, rfl⟩ := Label.reply.inj same
      obtain ⟨cause, rfl⟩ := sound_fault meets fault
      refine ⟨token, .unavailable "auth service unreachable".str, ?_, rfl, rfl⟩
      rw [answer, found]
      rfl
    · obtain ⟨rfl, rfl⟩ := Label.reply.inj same
      obtain ⟨cause, rfl⟩ := sound_fault meets fault
      exact unknown
  | gone i => exact ⟨nofun, nofun, nofun⟩
  | expire key => exact ⟨nofun, nofun, nofun⟩

theorem sound_of_honest (tracked : Tracked site labels state)
    (stepped : step site state label = some next) (honest : Honest site state label next) :
    sound site label = true := by
  cases label with
  | request headers =>
    by_contra unsound
    simp only [sound, Bool.or_eq_true, not_or, Bool.not_eq_true, Bool.not_eq_false',
      Option.any_eq_true, Bool.and_eq_true, Option.isNone_iff_eq_none] at unsound
    obtain ⟨disabled, token, extracted, formed, foreign⟩ := unsound
    obtain ⟨sent, heard, -⟩ :=
      honest.rejects token _ (answer_disabled disabled extracted foreign) rfl formed
    rw [(tracked.disabled disabled).2] at heard
    cases heard
  | reply i sent =>
    obtain ⟨token, found, rfl⟩ := Option.map_eq_some_iff.mp stepped
    by_contra unsound
    obtain ⟨rejected, vague⟩ :=
      unsound_reply (Bool.eq_false_iff.mpr unsound) state.cache token
    have answered : answer site state (.reply i sent) =
        some (token, .error (.unauthorized "invalid or unknown token".str)) := by
      rw [answer, found, Option.map_some, rejected]
      rfl
    have word : sent.definitive site = true := honest.rejects token _ answered rfl
      (tracked.waiting token (List.mem_of_getElem? found)).2
    rw [vague] at word
    cases word
  | gone i => rfl
  | expire key => rfl

/-! ## Every run -/

/-- A history is honest exactly where all that happens in it is sound. -/
theorem honest_iff_sound (history : History site) :
    history.Honest ↔ ∀ label ∈ history.labels, sound site label = true := by
  have tracked {before : List Label} (inside : before ⊆ history.labels) {state : State}
      (ran : run (step site) {} before = some state) : Tracked site history.labels state := by
    refine run_invariant_mem (fun label member state next holds stepped => ?_) ?_ ran
    · exact holds.step (inside member) stepped
    · exact ⟨nofun, nofun, fun _ => ⟨rfl, rfl⟩⟩
  constructor
  · intro honest label member
    obtain ⟨before, rest, whole⟩ := List.append_of_mem member
    have ran := history.ran
    rw [whole, run_append] at ran
    obtain ⟨state, reached, onward⟩ := Option.bind_eq_some_iff.mp ran
    rw [run_cons] at onward
    obtain ⟨next, stepped, -⟩ := Option.bind_eq_some_iff.mp onward
    have inside : before ⊆ history.labels := whole ▸ List.subset_append_left _ _
    exact sound_of_honest (tracked inside reached) stepped
      (honest before label rest whole state next reached stepped)
  · intro meets before label rest whole state next reached stepped
    have inside : before ⊆ history.labels := whole ▸ List.subset_append_left _ _
    have member : label ∈ history.labels := by
      rw [whole]
      exact List.mem_append_right _ List.mem_cons_self
    have remembers : Remembers site state := by
      refine run_invariant_mem (fun label member state next holds stepped => ?_) ?_ reached
      · exact Remembers.step holds (meets label (inside member)) stepped
      · intro key kept
        cases kept
    refine honest_of_sound (tracked inside reached) remembers ?_ member (meets label member) stepped
    rintro token token' ⟨headers, presented, first⟩ ⟨headers', presented', second⟩ digest
    exact history.apart headers headers' token token' presented presented' first second digest

/-! ## A service that is down -/

def plainSite : Site := { crates := Crates.plain, readBody := fun _ => none }

/-- A token is presented while the service answers that it is unavailable. -/
def outage : History plainSite where
  labels :=
    [.request [("authorization".str, Text.utf8 "Bearer a.b.c".str)], .reply 0 (.response 503 none)]
  reached :=
    { cache := AList.insert (hash plainSite "a.b.c".str) none ∅
      replied := [("a.b.c".str, .response 503 none)] }
  ran := rfl
  apart headers headers' token token' presented presented' first second _ := by
    obtain rfl : headers = [("authorization".str, Text.utf8 "Bearer a.b.c".str)] := by
      simpa using presented
    obtain rfl : headers' = [("authorization".str, Text.utf8 "Bearer a.b.c".str)] := by
      simpa using presented'
    exact Option.some.inj (first.symm.trans second)

/-- It is rejected, as if the service did not know it. -/
theorem outage_rejects : ¬outage.Honest := by
  intro all
  have honest := all [_] _ [] rfl _ _ rfl rfl
  obtain ⟨token, error, answered, status, -⟩ := honest.faults 0 _ rfl rfl
  have rejected : some ("a.b.c".str, Except.error (.unauthorized "invalid or unknown token".str)) =
      some (token, Except.error error) := answered
  obtain ⟨-, same⟩ := Prod.mk.inj (Option.some.inj rejected)
  obtain rfl := Except.error.inj same
  cases status

end LumidPlatform.Auth.Lumid
