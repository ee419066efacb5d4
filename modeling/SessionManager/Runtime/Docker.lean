import SessionManager.Domain

namespace session_manager

/-- What `list_managed` reports about one container. -/
structure RuntimeInfo where
  runtime_id : RuntimeId
  session_id : SessionId
  status : String
  expires_at : Time
deriving DecidableEq, Repr

namespace docker_runtime

/-- A container object of the Docker client, with the status it was loaded with. -/
structure Container where
  id : RuntimeId
  status : String
deriving DecidableEq, Repr

inductive DockerError
  | ImageNotFound
  | APIError (status_code : Option Nat)
  | other
deriving DecidableEq, Repr

/-- What ends an await inside `DockerRuntimeProvider.create`. `deadline` is the
loop condition of `_wait_until_healthy` turning false. -/
inductive Answer
  | done
  | listed (containers : List Container)
  | container (container : Container)
  | state (status : Option String) (health : Option String)
  | deadline
  | raised (error : DockerError)
deriving DecidableEq, Repr

/-- The await points of `DockerRuntimeProvider.create`. The flag of the health
check tells whether its failure removes the container. -/
inductive Create
  | lock
  | find
  | start (container : Container)
  | wait (container : Container) (cleanup : Bool)
  | logs (container : Container) (cleanup : Bool)
  | run
  | get
  | remove (container : Container)
deriving DecidableEq, Repr

/-- How `create` goes on after an await: at the next one, with the runtime id of
a container found healthy, or with an exception. -/
inductive Next
  | await (create : Create)
  | healthy (runtime_id : RuntimeId)
  | raised
deriving DecidableEq, Repr

/-- A failed health check of a container this call obtained removes it first. -/
def wait_failed (container : Container) : Bool → Next
  | true => .await (.remove container)
  | false => .raised

/-- One iteration of `_wait_until_healthy` after the container was reloaded. -/
def check_health (container : Container) (cleanup : Bool) (status health : Option String) : Next :=
  if status = some "exited" ∨ status = some "dead" then .await (.logs container cleanup)
  else if health = some "healthy" then .healthy container.id
  else .await (.wait container cleanup)

def Create.resume : Create → Answer → Option Next
  | .lock, .done => some (.await .find)
  | .find, .listed [] => some (.await .run)
  | .find, .listed (existing :: _) =>
    some (.await (if existing.status ≠ "running" then .start existing else .wait existing false))
  | .find, .raised _ => some .raised
  | .start existing, .done => some (.await (.wait existing false))
  | .start _, .raised _ => some .raised
  | .wait container cleanup, .state status health =>
    some (check_health container cleanup status health)
  | .wait container cleanup, .deadline => some (wait_failed container cleanup)
  | .wait container cleanup, .raised _ => some (wait_failed container cleanup)
  | .logs container cleanup, .done => some (wait_failed container cleanup)
  | .logs container cleanup, .raised _ => some (wait_failed container cleanup)
  | .run, .container container => some (.await (.wait container true))
  | .run, .raised (.APIError (some 409)) => some (.await .get)
  | .run, .raised _ => some .raised
  | .get, .container container => some (.await (.wait container true))
  | .get, .raised _ => some .raised
  | .remove _, .done => some .raised
  | .remove _, .raised _ => some .raised
  | _, _ => none

/-- The await points of `DockerRuntimeProvider.stop`. -/
inductive Stop
  | get (runtime_id : RuntimeId)
  | reload (container : Container)
  | stop (container : Container)
deriving DecidableEq, Repr

/-- The await points of `DockerRuntimeProvider.delete`. -/
inductive Delete
  | get (runtime_id : RuntimeId)
  | remove (container : Container)
deriving DecidableEq, Repr

/-- How `stop` and `delete` go on after an await. -/
inductive Goes (α : Type)
  | await (next : α)
  | returned
  | raised
deriving DecidableEq, Repr

/-- NotFound, which `_get_container` and `_remove_container` take for an answer. -/
def DockerError.NotFound : DockerError := .APIError (some 404)

/-- `_get_container`, which goes on with the container or leaves the function. -/
def _get_container {α : Type} (next : Container → α) : Answer → Option (Goes α)
  | .container container => some (.await (next container))
  | .raised error => some (if error = .NotFound then .returned else .raised)
  | _ => none

def Stop.resume : Stop → Answer → Option (Goes Stop)
  | .get _, answer => _get_container .reload answer
  | .reload container, .state status _ =>
    some (if status = some "running" then .await (.stop container) else .returned)
  | .stop _, .done => some .returned
  | .reload _, .raised _ | .stop _, .raised _ => some .raised
  | _, _ => none

def Delete.resume : Delete → Answer → Option (Goes Delete)
  | .get _, answer => _get_container .remove answer
  | .remove _, .done => some .returned
  | .remove _, .raised error => some (if error = .NotFound then .returned else .raised)
  | _, _ => none

/-- The answers on which a health check gives up. -/
def Answer.gives_up : Answer → Bool
  | .state status _ => status = some "exited" || status = some "dead"
  | .deadline | .raised _ => true
  | _ => false

/-- Every way in which `create` goes on. -/
inductive Create.Resumed : Create → Answer → Next → Prop
  | locked : Resumed .lock .done (.await .find)
  | absent : Resumed .find (.listed []) (.await .run)
  | stopped {existing : Container} {rest : List Container} :
      Resumed .find (.listed (existing :: rest)) (.await (.start existing))
  | running {existing : Container} {rest : List Container} :
      Resumed .find (.listed (existing :: rest)) (.await (.wait existing false))
  | unlisted {error : DockerError} : Resumed .find (.raised error) .raised
  | started {existing : Container} : Resumed (.start existing) .done (.await (.wait existing false))
  | unstarted {existing : Container} {error : DockerError} : Resumed (.start existing) (.raised error) .raised
  | healthy {container : Container} {cleanup : Bool} {status : Option String}
      (hgoes : (Answer.state status (some "healthy")).gives_up = false) :
      Resumed (.wait container cleanup) (.state status (some "healthy")) (.healthy container.id)
  | poll {container : Container} {cleanup : Bool} {status health : Option String}
      (hgoes : (Answer.state status health).gives_up = false) :
      Resumed (.wait container cleanup) (.state status health) (.await (.wait container cleanup))
  | exited {container : Container} {cleanup : Bool} {status health : Option String}
      (hgives_up : (Answer.state status health).gives_up = true) :
      Resumed (.wait container cleanup) (.state status health) (.await (.logs container cleanup))
  | gave_up {container : Container} {a : Answer} (hgives_up : a.gives_up = true) :
      Resumed (.wait container true) a (.await (.remove container))
  | left {container : Container} {a : Answer} (hgives_up : a.gives_up = true) :
      Resumed (.wait container false) a .raised
  | logged {container : Container} {a : Answer} : Resumed (.logs container true) a (.await (.remove container))
  | logged_left {container : Container} {a : Answer} : Resumed (.logs container false) a .raised
  | created {container : Container} : Resumed .run (.container container) (.await (.wait container true))
  | conflict : Resumed .run (.raised (.APIError (some 409))) (.await .get)
  | uncreated {error : DockerError} (hother : error ≠ .APIError (some 409)) : Resumed .run (.raised error) .raised
  | found {container : Container} : Resumed .get (.container container) (.await (.wait container true))
  | unfound {error : DockerError} : Resumed .get (.raised error) .raised
  | removed {container : Container} {a : Answer} : Resumed (.remove container) a .raised

/-- The inversion of `resume`: every answer of the engine takes `create` along one of
the cases of `Resumed`. -/
theorem Create.resumed {c : Create} {a : Answer} {next : Next} (h : c.resume a = some next) :
    c.Resumed a next := by
  have hfailed (container : Container) (cleanup : Bool) (hnext : wait_failed container cleanup = next)
      (hgives_up : a.gives_up = true) : Resumed (.wait container cleanup) a next := by
    cases cleanup <;> cases hnext
    · exact .left hgives_up
    · exact .gave_up hgives_up
  have hlogged (container : Container) (cleanup : Bool) (hnext : wait_failed container cleanup = next) :
      Resumed (.logs container cleanup) a next := by
    cases cleanup <;> cases hnext
    · exact .logged_left
    · exact .logged
  unfold Create.resume at h
  split at h
  case h_3 => split at h <;> cases h <;> constructor
  case h_7 container cleanup status health =>
    obtain rfl := Option.some.inj h
    unfold check_health
    split
    · rename_i hstate
      exact .exited (by simpa [Answer.gives_up] using hstate)
    · rename_i hstate
      have hgoes (health : Option String) : (Answer.state status health).gives_up = false := by
        simpa [Answer.gives_up] using hstate
      split
      · rename_i hhealth
        subst hhealth
        exact .healthy (hgoes _)
      · exact .poll (hgoes _)
  case h_8 | h_9 => exact hfailed _ _ (Option.some.inj h) rfl
  case h_10 | h_11 => exact hlogged _ _ (Option.some.inj h)
  case h_14 error hother =>
    cases h
    exact .uncreated fun heq => hother (by rw [heq])
  all_goals cases h <;> constructor

/-- A handle is only returned on a reload that reported the container healthy; `running`
alone is not enough for it. -/
theorem Create.resume_healthy {c : Create} {a : Answer} {runtime_id : RuntimeId}
    (h : c.resume a = some (.healthy runtime_id)) :
    ∃ container cleanup status, c = .wait container cleanup ∧
      a = .state status (some "healthy") ∧ container.id = runtime_id := by
  cases Create.resumed h with
  | healthy => exact ⟨_, _, _, rfl, rfl, rfl⟩

/-- What `issue_vnc_access` reads from a reloaded container: its state, the
VNC_JWT_KEY of its environment and the host port of noVNC. -/
structure Attrs where
  status : String
  health : Option String
  vnc_jwt_key : Option String
  host_port : Option Nat
deriving DecidableEq, Repr

/-- An address of a container's desktop: its URL leads to the host port, with a
token signed by the key. -/
structure VncAccess where
  container_id : RuntimeId
  host_port : Nat
  signing_key : String
  expires_at : Time
deriving DecidableEq, Repr

/-- `issue_vnc_access` once the container is reloaded; `none` when it raises. -/
def vnc_access (container : Container) (attrs : Attrs) (expires_at : Time) : Option VncAccess :=
  if attrs.status ≠ "running" ∨ attrs.health ≠ some "healthy" then none
  else if !truthy attrs.vnc_jwt_key then none
  else attrs.host_port.map fun host_port =>
    { container_id := container.id
      host_port := host_port
      signing_key := attrs.vnc_jwt_key.getD ""
      expires_at := expires_at }

/-- The access that a container is given names that container, so its address leads
nowhere else. -/
theorem vnc_access_container {container : Container} {attrs : Attrs} {expires_at : Time}
    {access : VncAccess} (h : vnc_access container attrs expires_at = some access) :
    access.container_id = container.id := by
  unfold vnc_access at h
  split at h
  · cases h
  · split at h
    · cases h
    · obtain ⟨host_port, -, rfl⟩ := Option.map_eq_some_iff.mp h
      rfl

end docker_runtime

end session_manager
