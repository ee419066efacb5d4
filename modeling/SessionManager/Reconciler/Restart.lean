import SessionManager.Reconciler.Deletions

open transition unit_of_work

namespace session_manager.runtime_reconciler

/-- A listing of Docker containers: their ids are not empty, and a container is
in one state at a time. -/
structure Listing (runtimes : List RuntimeInfo) : Prop where
  nonempty : ∀ runtime ∈ runtimes, runtime.runtime_id ≠ ""
  one_state : ∀ a ∈ runtimes, ∀ b ∈ runtimes, a.runtime_id = b.runtime_id → a = b

private theorem reconcile_session_expires_at (now : Time) (candidates : List RuntimeInfo)
    (session : AgentSession) :
    (reconcile_session now candidates session).2.expires_at = session.expires_at := by
  unfold reconcile_session bind_selected set_status
  split
  · rfl
  · split
    · dsimp only
      split <;> rfl
    · split
      · rfl
      · split
        · dsimp only
          split <;> rfl
        · dsimp only
          split <;> split <;> split <;> rfl

section Session

variable {now : Time} {candidates : List RuntimeInfo} {session : AgentSession}

private theorem reconcile_deleted (hdeleted : session.deleted_at.isSome = true) :
    (reconcile_session now candidates session).2 = session := by
  simp [reconcile_session, hdeleted]

private theorem reconcile_expired (hundeleted : session.deleted_at = none)
    (hexpired : session.expires_at ≤ now) :
    (reconcile_session now candidates session).2 =
      if session.status ≠ .EXPIRED then set_status .EXPIRED session else session := by
  simp [reconcile_session, hundeleted, hexpired]

/-- A session that is not active, and not expired by now, is left as it is, whatever
containers the listing shows for it. -/
theorem reconcile_inactive (hunexpired : ¬ session.expires_at ≤ now)
    (hinactive : active session.status = false) :
    (reconcile_session now candidates session).2 = session := by
  simp [reconcile_session, hunexpired, hinactive]

/-- An active session without a runtime fails, unless it is still being created: then
its container may be about to come. -/
theorem reconcile_without_runtime (hundeleted : session.deleted_at = none)
    (hunexpired : ¬ session.expires_at ≤ now) (hactive : active session.status = true) :
    (reconcile_session now [] session).2 =
      if session.status ≠ .CREATING then set_status .FAILED session else session := by
  simp [reconcile_session, hundeleted, hunexpired, hactive, _select_runtime]

/-- An active session is bound to the runtime selected for it, which decides on its
status. -/
theorem reconcile_selected {selected : RuntimeInfo} (hundeleted : session.deleted_at = none)
    (hunexpired : ¬ session.expires_at ≤ now) (hactive : active session.status = true)
    (hselect : _select_runtime session.runtime_id candidates = some selected) :
    (reconcile_session now candidates session).2 = bind_selected selected session := by
  simp [reconcile_session, hundeleted, hunexpired, hactive, hselect]

/-- Binding a session to the runtime selected for it leaves nothing to be done
as long as the session is active. -/
theorem bind_selected_again {selected : RuntimeInfo}
    (hactive : active (bind_selected selected session).status = true) :
    bind_selected selected (bind_selected selected session) = bind_selected selected session := by
  have hbound := bind_selected_runtime_id selected session
  have hstatus := bind_selected_status selected session
  by_cases hrunning : selected.status = "running"
  · have hcreating : (bind_selected selected session).status ≠ .CREATING := by
      rw [hstatus, if_pos hrunning]
      split <;> simp_all
    generalize bind_selected selected session = bound at hbound hcreating
    simp [bind_selected, hbound, hrunning, hcreating]
  · rw [hstatus, if_neg hrunning] at hactive
    split at hactive <;> simp [active] at hactive

end Session

/-- What the second pass sees of a session: some of the runtimes, and among them
the one that was selected. -/
structure Thinned (now : Time) (session : AgentSession) (candidates candidates' : List RuntimeInfo) :
    Prop where
  listing : Listing candidates
  subset : candidates' ⊆ candidates
  keeps : session.deleted_at = none → ¬ session.expires_at ≤ now → active session.status = true →
    ∀ selected, _select_runtime session.runtime_id candidates = some selected →
      selected ∈ candidates'

namespace Thinned

variable {now now' : Time} {candidates candidates' : List RuntimeInfo} {session : AgentSession}

private theorem eq_nil (h : Thinned now session candidates candidates') (hempty : candidates = []) :
    candidates' = [] :=
  List.eq_nil_of_subset_nil (hempty ▸ h.subset)

/-- The runtime the first pass bound the session to is selected again, as the binding
goes before everything else. -/
theorem select_again (h : Thinned now session candidates candidates')
    (hundeleted : session.deleted_at = none) (hunexpired : ¬ session.expires_at ≤ now)
    (hactive : active session.status = true) {selected : RuntimeInfo}
    (hselect : _select_runtime session.runtime_id candidates = some selected) :
    _select_runtime (some selected.runtime_id) candidates' = some selected := by
  have hmem := select_mem hselect
  exact select_bound (h.keeps hundeleted hunexpired hactive selected hselect)
    (h.listing.nonempty selected hmem) fun a ha hid =>
      h.listing.one_state a (h.subset ha) selected hmem hid

/-- A second pass over a reconciled session changes nothing, whichever of its other
runtimes are gone. -/
theorem reconcile_again (h : Thinned now session candidates candidates')
    (hexpires : session.expires_at ≤ now' ↔ session.expires_at ≤ now) :
    (reconcile_session now' candidates' (reconcile_session now candidates session).2).2 =
      (reconcile_session now candidates session).2 := by
  have hdeleted_at := reconcile_session_deleted_at now candidates session
  have hexpires_at := reconcile_session_expires_at now candidates session
  cases hdeleted : session.deleted_at with
  | some deleted =>
    exact reconcile_deleted (by simp [hdeleted_at, hdeleted])
  | none =>
    rw [hdeleted] at hdeleted_at
    by_cases hexpired : session.expires_at ≤ now
    · have hstatus : (reconcile_session now candidates session).2.status = .EXPIRED := by
        rw [reconcile_expired hdeleted hexpired]
        split <;> simp_all [set_status]
      rw [reconcile_expired hdeleted_at (by rw [hexpires_at]; exact hexpires.mpr hexpired), hstatus]
      rfl
    · have hunexpired : ¬ (reconcile_session now candidates session).2.expires_at ≤ now' := by
        rw [hexpires_at, hexpires]
        exact hexpired
      by_cases hactive : active (reconcile_session now candidates session).2.status = true
      · by_cases hsession : active session.status = true
        · cases hselect : _select_runtime session.runtime_id candidates with
          | none =>
            have hempty := select_eq_none.mp hselect
            rw [h.eq_nil hempty, reconcile_without_runtime hdeleted_at hunexpired hactive]
            refine if_neg (not_not.mpr ?_)
            rw [hempty, reconcile_without_runtime hdeleted hexpired hsession] at hactive ⊢
            split at hactive
            · simp [set_status, active] at hactive
            · simp_all
          | some selected =>
            have hfirst := reconcile_selected hdeleted hexpired hsession hselect
            have hagain := h.select_again hdeleted hexpired hsession hselect
            rw [hfirst] at hactive hunexpired hdeleted_at ⊢
            rw [← bind_selected_runtime_id selected session] at hagain
            rw [reconcile_selected hdeleted_at hunexpired hactive hagain]
            exact bind_selected_again hactive
        · rw [reconcile_inactive hexpired (by simpa using hsession)] at hactive
          exact absurd hactive hsession
      · exact reconcile_inactive hunexpired (by simpa using hactive)

/-- A second pass that finds only the selected runtime leaves what the first would have
left. -/
theorem reconcile_restarted (h : Thinned now session candidates candidates')
    (honly : session.deleted_at = none → ¬ session.expires_at ≤ now →
      active session.status = true → ∀ runtime ∈ candidates',
        _select_runtime session.runtime_id candidates = some runtime)
    (hexpires : session.expires_at ≤ now' ↔ session.expires_at ≤ now) :
    (reconcile_session now' candidates' session).2 = (reconcile_session now candidates session).2 := by
  cases hdeleted : session.deleted_at with
  | some deleted =>
    rw [reconcile_deleted (by simp [hdeleted]), reconcile_deleted (by simp [hdeleted])]
  | none =>
    by_cases hexpired : session.expires_at ≤ now
    · rw [reconcile_expired hdeleted hexpired, reconcile_expired hdeleted (hexpires.mpr hexpired)]
    · have hunexpired : ¬ session.expires_at ≤ now' := fun hle => hexpired (hexpires.mp hle)
      by_cases hactive : active session.status = true
      · cases hselect : _select_runtime session.runtime_id candidates with
        | none =>
          have hempty := select_eq_none.mp hselect
          rw [h.eq_nil hempty, hempty, reconcile_without_runtime hdeleted hexpired hactive,
            reconcile_without_runtime hdeleted hunexpired hactive]
        | some selected =>
          have hagain : _select_runtime session.runtime_id candidates' = some selected := by
            cases hselect' : _select_runtime session.runtime_id candidates' with
            | none =>
              have hmem := h.keeps hdeleted hexpired hactive selected hselect
              simp [select_eq_none.mp hselect'] at hmem
            | some runtime =>
              have honly' := honly hdeleted hexpired hactive runtime (select_mem hselect')
              exact honly'.symm.trans hselect
          rw [reconcile_selected hdeleted hexpired hactive hselect,
            reconcile_selected hdeleted hunexpired hactive hagain]
      · have hinactive : active session.status = false := by simpa using hactive
        rw [reconcile_inactive hexpired hinactive, reconcile_inactive hunexpired hinactive]

end Thinned

namespace Pass

variable {db : Database} {first second : Pass} {requests requests' : List (RuntimeId × Bool)}
  {gone : List RuntimeId} {session_id : SessionId} {session : AgentSession}

/-- A pass that lists what is left of the runtimes of an earlier one, in any
order, before a further session expires. -/
structure Follows (first : Pass) (gone : List RuntimeId) (second : Pass) : Prop where
  relisted : second.runtimes.Perm (first.runtimes.filter fun runtime => runtime.runtime_id ∉ gone)
  expired : ∀ session_id session, first.sessions.get? session_id = some session →
    (session.expires_at ≤ second.now ↔ session.expires_at ≤ first.now)

private theorem Follows.mem_candidates (h : first.Follows gone second) {runtime : RuntimeInfo} :
    runtime ∈ second.candidates session_id ↔
      runtime ∈ first.candidates session_id ∧ runtime.runtime_id ∉ gone := by
  rw [Pass.mem_candidates, Pass.mem_candidates, h.relisted.mem_iff, List.mem_filter]
  simp only [decide_eq_true_eq]
  tauto

/-- The first pass asks for no deletion of a runtime it selects, so the second pass
finds it listed. -/
theorem selected_not_requested (hlisting : Listing first.runtimes)
    (hrequests : requests.map Prod.fst = first.deletions.map RuntimeInfo.runtime_id)
    (hget : first.sessions.get? session_id = some session)
    (hundeleted : session.deleted_at = none) (hunexpired : ¬ session.expires_at ≤ first.now)
    {selected : RuntimeInfo}
    (hselect : _select_runtime session.runtime_id (first.candidates session_id) = some selected) :
    selected.runtime_id ∉ requests.map Prod.fst := by
  obtain ⟨hlisted, rfl⟩ := Pass.mem_candidates.mp (select_mem hselect)
  rw [requested_iff hlisting.one_state hrequests hlisted]
  rintro (hmissing | ⟨session', hget', hreason⟩)
  · simp [hget] at hmissing
  · obtain rfl : session = session' := Option.some.inj (hget.symm.trans hget')
    rcases hreason with hdeleted | hexpired | ⟨-, hother⟩
    · simp [hundeleted] at hdeleted
    · exact hunexpired hexpired
    · exact hother hselect

/-- What is left of the candidates of a session after the first pass has its selected
runtime among them. -/
theorem thinned (hlisting : Listing first.runtimes)
    (hrequests : requests.map Prod.fst = first.deletions.map RuntimeInfo.runtime_id)
    (hgone : gone ⊆ requests.map Prod.fst) (hfollows : first.Follows gone second)
    (hget : first.sessions.get? session_id = some session) :
    Thinned first.now session (first.candidates session_id) (second.candidates session_id) where
  listing :=
    { nonempty := fun runtime hmem => hlisting.nonempty runtime (Pass.mem_candidates.mp hmem).1
      one_state := fun a ha b hb => hlisting.one_state a (Pass.mem_candidates.mp ha).1 b
        (Pass.mem_candidates.mp hb).1 }
  subset := fun _ hmem => (hfollows.mem_candidates.mp hmem).1
  keeps := by
    intro hundeleted hunexpired _ selected hselect
    have hkept := selected_not_requested hlisting hrequests hget hundeleted hunexpired hselect
    exact hfollows.mem_candidates.mpr ⟨select_mem hselect, fun hmem => hkept (hgone hmem)⟩

/-- After all deletions succeeded only the selected runtime of a session is left in the
listing of the second pass. -/
theorem only_selected (hlisting : Listing first.runtimes)
    (hrequests : requests.map Prod.fst = first.deletions.map RuntimeInfo.runtime_id)
    (hfollows : first.Follows (requests.map Prod.fst) second)
    (hget : first.sessions.get? session_id = some session) (hactive : active session.status = true)
    {runtime : RuntimeInfo} (hmem : runtime ∈ second.candidates session_id) :
    _select_runtime session.runtime_id (first.candidates session_id) = some runtime := by
  obtain ⟨hcandidate, hkept⟩ := hfollows.mem_candidates.mp hmem
  obtain ⟨hlisted, rfl⟩ := Pass.mem_candidates.mp hcandidate
  rw [requested_iff hlisting.one_state hrequests hlisted] at hkept
  by_contra hother
  exact hkept (.inr ⟨session, hget, .inr (.inr ⟨hactive, hother⟩)⟩)

/-- A pass over the sessions an earlier pass committed changes none of them, so its
transaction writes nothing. -/
theorem second_pass_clean (hlisting : Listing first.runtimes) (hread : first.sessions = db.sessions)
    (hrequests : requests.map Prod.fst = first.deletions.map RuntimeInfo.runtime_id)
    (hgone : gone ⊆ requests.map Prod.fst) (hfollows : first.Follows gone second)
    (hread' : second.sessions = (db.apply first.transaction).sessions) (session_id : SessionId) :
    second.transaction.update_session session_id = none := by
  cases hget : first.sessions.get? session_id with
  | none =>
    have hget' : second.sessions.get? session_id = none := by
      rw [hread', apply_transaction hread, hget, Option.map_none]
    simp [transaction, copy, hget']
  | some session =>
    have hget' : second.sessions.get? session_id =
        some (reconcile_session first.now (first.candidates session_id) session).2 := by
      rw [hread', apply_transaction hread, hget, Option.map_some]
    have hagain := (thinned hlisting hrequests hgone hfollows hget).reconcile_again
      (hfollows.expired session_id session hget)
    simp only [transaction, copy, hget', Option.map_some, Option.bind_some]
    exact Loaded.update_of_eq hagain

/-- A pass that finds the sessions as an earlier pass did, whose deletions all
succeeded, commits what that pass would have committed. -/
theorem restarted_transaction (hlisting : Listing first.runtimes)
    (hrequests : requests.map Prod.fst = first.deletions.map RuntimeInfo.runtime_id)
    (hfollows : first.Follows (requests.map Prod.fst) second)
    (hread : second.sessions = first.sessions) : second.transaction = first.transaction := by
  have hcopy : ∀ session_id, second.copy session_id = first.copy session_id := by
    intro session_id
    rw [copy, copy, hread]
    cases hget : first.sessions.get? session_id with
    | none => rfl
    | some session =>
      have hrestarted :=
        (thinned hlisting hrequests (List.Subset.refl _) hfollows hget).reconcile_restarted
          (fun _ _ hactive _ hmem => only_selected hlisting hrequests hfollows hget hactive hmem)
          (hfollows.expired session_id session hget)
      rw [Option.map_some, Option.map_some, hrestarted]
  simp only [transaction, hcopy]

/-- `reconcile` is idempotent: whichever of its deletions went through, a second
pass leaves every session as the first committed it. It is restartable: after a
failed commit a second pass commits the same rows. -/
theorem reconcile_idempotent (hlisting : Listing first.runtimes)
    (hfirst : Alone.Run db first requests) :
    (∀ gone ⊆ requests.map Prod.fst, ∀ second requests', first.Follows gone second →
      Alone.Run (db.apply first.transaction) second requests' →
      ∀ session_id,
        ((db.apply first.transaction).apply second.transaction).sessions.get? session_id =
          (db.apply first.transaction).sessions.get? session_id) ∧
    ∀ second requests', first.Follows (requests.map Prod.fst) second →
      Alone.Run db second requests' →
      second.transaction = first.transaction ∧
        db.apply second.transaction = db.apply first.transaction := by
  obtain ⟨hread, hrequests⟩ := Alone.requests_eq hfirst
  constructor
  · intro gone hgone second requests' hfollows hsecond session_id
    obtain ⟨hread', -⟩ := Alone.requests_eq hsecond
    have hclean := second_pass_clean hlisting hread hrequests hgone hfollows hread' session_id
    rw [Database.apply_sessions_get? rfl, hclean]
    simp
  · intro second requests' hfollows hsecond
    obtain ⟨hread', -⟩ := Alone.requests_eq hsecond
    have hsame := restarted_transaction hlisting hrequests hfollows (hread'.trans hread.symm)
    exact ⟨hsame, by rw [hsame]⟩

/-- The deletion of a duplicate failed, and the second pass lists both containers
the other way round. -/
theorem reconcile_idempotent_duplicate : ∃ (db : Database) (first second : Pass),
    Alone.Run db first [("b", false)] ∧ second.runtimes = first.runtimes.reverse ∧
    Alone.Run (db.apply first.transaction) second [("b", false)] ∧
    ((db.apply first.transaction).apply second.transaction).sessions.get? 1 =
      (db.apply first.transaction).sessions.get? 1 := by
  let session : AgentSession := { expires_at := 10 }
  let db : Database := { Database.empty with sessions := Table.empty.insert 1 session }
  let first : Pass := ⟨[⟨"a", 1, "running", 10⟩, ⟨"b", 1, "exited", 10⟩], db.sessions, 0⟩
  let second : Pass := ⟨first.runtimes.reverse, (db.apply first.transaction).sessions, 1⟩
  have hfirst : Alone.Run db first [("b", false)] := Alone.reaches_commit rfl fun _ => false
  have hsecond : Alone.Run (db.apply first.transaction) second [("b", false)] :=
    Alone.reaches_commit rfl fun _ => false
  have hlisting : Listing first.runtimes := ⟨by decide, by decide⟩
  have hfollows : first.Follows [] second := by
    refine ⟨?_, fun session_id session hget => ?_⟩
    · have hall : (first.runtimes.filter fun r => r.runtime_id ∉ ([] : List RuntimeId)) =
          first.runtimes := rfl
      rw [hall]
      exact first.runtimes.reverse_perm
    · have hexpires : session.expires_at = 10 := by
        have hmem := first.sessions.get?_eq_some_iff_mem.mp hget
        obtain ⟨-, rfl⟩ := Prod.mk.inj (List.mem_singleton.mp hmem)
        rfl
      rw [hexpires]
      decide
  exact ⟨db, first, second, hfirst, rfl, hsecond,
    (reconcile_idempotent hlisting hfirst).1 [] (List.nil_subset _) second _ hfollows hsecond 1⟩

end Pass

end session_manager.runtime_reconciler
