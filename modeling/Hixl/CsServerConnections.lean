import Hixl.CsServerModel
import Hixl.HeldResources

/-!
# The connections of the control server

A connection is in the table of handshakes, then in `clients_`, and then in
neither; it never comes back.  As long as no peer sends the message that the
server uses for its own cleanup, an entry of `clients_` stands under the open
descriptor of its connection, so a descriptor that the kernel hands out again is
free in `clients_`.
-/

namespace Hixl

open InterleavedCalls HeldResources

namespace CsServer

def Started (s : CsServer) (c : ℕ) : Prop :=
  c < s.nextConnection ∧ ∀ fd, s.pendingHandshakes.lookup fd ≠ some c

/-- The connection has been published in `clients_` or never will be, and it
is not there. -/
def Gone (s : CsServer) (c : ℕ) : Prop := s.Started c ∧ ∀ fd, s.clients.lookup fd ≠ some c

structure Tables (s : CsServer) : Prop where
  client_fd : ∀ {fd c}, s.clients.lookup fd = some c →
    s.fdOf c = some fd ∧ s.Started c
  pending_fd : ∀ {fd c}, s.pendingHandshakes.lookup fd = some c →
    s.fdOf c = some fd ∧ c < s.nextConnection ∧ ∀ fd', s.clients.lookup fd' ≠ some c
  fd_inj : ∀ {fd c c'}, s.fdOf c = some fd → s.fdOf c' = some fd → c = c'
  unborn : ∀ {c}, s.nextConnection ≤ c → s.fdOf c = none

variable {s : CsServer} {c : ℕ}

theorem isConnected_eq_true_iff :
    s.isConnected c = true ↔ ∃ fd, s.fdOf c = some fd ∧ s.clients.lookup fd = some c := by
  unfold isConnected
  cases hfd : s.fdOf c with
  | none => simp
  | some fd => simp

theorem Tables.gone_of_not_isConnected (htables : s.Tables) (hstarted : s.Started c)
    (hnot : s.isConnected c = false) : s.Gone c := by
  constructor
  · exact hstarted
  · intro fd hclient
    have hconnected : s.isConnected c = true :=
      isConnected_eq_true_iff.mpr ⟨fd, (htables.client_fd hclient).1, hclient⟩
    simp [hnot] at hconnected

theorem Tables.pending_free (htables : s.Tables) {fd : ℕ}
    (hpending : s.pendingHandshakes.lookup fd = some c) : fd ∉ s.clients := by
  intro hmem
  obtain ⟨c', hclient⟩ := exists_lookup hmem
  have hsame := htables.fd_inj (htables.client_fd hclient).1
    (htables.pending_fd hpending).1
  rw [hsame] at hclient
  exact (htables.pending_fd hpending).2.2 fd hclient

end CsServer

/-! ## What a step does -/

namespace ServerCall

def Works (s : CsServer) : ServerCall → Prop
  | .proClientMsg c | .cleanupClient c | .cleanupFound c _ => s.Started c
  | .respond c | .failedProcess c | .trackChannel c _ => s.Started c
  | .process c .destroyChannelReq => s.Gone c
  | .process c _ => s.Started c
  | .submitCleanup c | .discardChannel c _ | .findChannel c _ => s.Gone c
  | .destroyChannel c _ _ | .forgetClient c _ => s.Gone c
  | _ => True

def holds (p : ℕ × ℕ) : ServerCall → Bool
  | .trackChannel c ch | .discardChannel c ch => (c, ch) = p
  | .destroyChannel c ch _ => (c, ch) = p
  | _ => false

def creates (connection : ℕ) : ServerCall → Bool
  | .process c .createChannelReq | .trackChannel c _ => c = connection
  | _ => false

end ServerCall

inductive ServerStep (input : ServerInput) (s : CsServer) :
    ServerCall → CsServer → ServerCall → Prop where
  | idle {call next : ServerCall}
      (hworks : s.Tables → call.Works s → next.Works s := by exact fun _ h => h)
      (hholds : ∀ p, next.holds p = call.holds p := by exact fun _ => rfl)
      (hcreates : ∀ c, next.creates c = true → call.creates c = true := by exact fun _ h => h) :
      ServerStep input s call s next
  | accepted {fd : ℕ} (hfree : s.fdFree fd = true) :
      ServerStep input s (.acceptClient fd) (s.newConnection fd) (.advanceHandshake fd)
  | dropped {call : ServerCall} {fd c : ℕ}
      (hholds : ∀ p, call.holds p = false)
      (hpending : s.pendingHandshakes.lookup fd = some c) :
      ServerStep input s call (s.dropHandshake fd c) .done
  | published {fd c : ℕ}
      (hpending : s.pendingHandshakes.lookup fd = some c)
      (hfree : fd ∉ s.clients) :
      ServerStep input s (.advanceHandshake fd) (s.publishClient fd c) .done
  | received {c fd : ℕ} {next : ServerCall} (hfd : s.fdOf c = some fd)
      (hnext : next = .done ∨ next = .cleanupClient c) :
      ServerStep input s (.proClientMsg c) (s.receiveMsgs c input.msgs) next
  | disconnected {c fd : ℕ} (hclient : s.clients.lookup fd = some c) :
      ServerStep input s (.cleanupFound c fd) (s.disconnectClient fd c) (.submitCleanup c)
  | submitted {c : ℕ} :
      ServerStep input s (.submitCleanup c) (s.submitMsgs c [.destroyChannelReq]) .done
  | taken {c : ℕ} {msg : ServerMsg} {queue : List (ℕ × ServerMsg)}
      {next : ServerCall} (hqueue : s.reqQueue = (c, msg) :: queue)
      (hnext : next = .process c msg ∨ next = .done) :
      ServerStep input s .takeMsg { s with reqQueue := queue } next
  | created {c : ℕ} :
      ServerStep input s (.process c .createChannelReq)
        (s.createdChannel c) (.trackChannel c s.nextChannel)
  | closed {c : ℕ} :
      ServerStep input s (.process c .destroyChannelReq) (s.close c) (.findChannel c input.ok)
  | tracked {c ch : ℕ} (hconnected : s.isConnected c = true) :
      ServerStep input s (.trackChannel c ch)
        { s with channels := s.channels.insert c ch } (.respond c)
  | discarded {c ch : ℕ} :
      ServerStep input s (.discardChannel c ch) (s.callDestroy c ch) (.failedProcess c)
  | foundNone {c : ℕ} {ok : Bool} (hnone : s.channels.lookup c = none) :
      ServerStep input s (.findChannel c ok)
        { s with cleaned := c :: s.cleaned } (.forgetClient c ok)
  | foundSome {c ch : ℕ} {ok : Bool}
      (hsome : s.channels.lookup c = some ch) :
      ServerStep input s (.findChannel c ok)
        { s with
          cleaned := c :: s.cleaned
          channels := s.channels.erase c }
        (.destroyChannel c ch ok)
  | destroyed {c ch : ℕ} {ok : Bool} :
      ServerStep input s (.destroyChannel c ch ok) (s.callDestroy c ch)
        (.forgetClient c (ok && input.ok))
  | forgotten {c : ℕ} :
      ServerStep input s (.forgetClient c true)
        { s with
          disconnectedClients := s.disconnectedClients.filter
            fun other => other ≠ c }
        .done

namespace ServerStep

variable {input : ServerInput} {s s' : CsServer} {next : ServerCall} {call : ServerCall}

attribute [local simp] ServerCall.next

theorem finished (hholds : ∀ p, call.holds p = false := by exact fun _ => rfl) :
    ServerStep input s call s .done :=
  idle (fun _ _ => trivial) (fun p => (hholds p).symm)
    (fun _ hdone => absurd hdone (by simp [ServerCall.creates]))

variable {fd : ℕ}

theorem of_advanceHandshake
    (hnext : (ServerCall.advanceHandshake fd).next input s = some (s', next)) :
    ServerStep input s (.advanceHandshake fd) s' next := by
  simp only [ServerCall.next] at hnext
  split at hnext
  · cases hnext
    exact finished
  · next c hpending =>
    cases hstate : input.handshake with
    | failed =>
      simp only [hstate] at hnext
      cases hnext
      exact dropped (fun _ => rfl) hpending
    | wantMore =>
      simp only [hstate] at hnext
      cases hnext
      exact finished
    | complete =>
      simp only [hstate] at hnext
      split_ifs at hnext with hmem
      all_goals cases hnext
      · exact dropped (fun _ => rfl) hpending
      · exact published hpending hmem

theorem of_handleClientEvent
    (hnext : (ServerCall.handleClientEvent fd).next input s = some (s', next)) :
    ServerStep input s (.handleClientEvent fd) s' next := by
  simp only [ServerCall.next] at hnext
  split at hnext
  · next c hpending =>
    split_ifs at hnext
    all_goals cases hnext
    · exact dropped (fun _ => rfl) hpending
    · exact idle (fun _ _ => trivial)
  · split at hnext
    · cases hnext
      exact finished
    · next c hclient =>
      split_ifs at hnext
      all_goals
        cases hnext
        exact idle (fun htables _ => (htables.client_fd hclient).2)

variable {c : ℕ}

theorem of_proClientMsg (hnext : (ServerCall.proClientMsg c).next input s = some (s', next)) :
    ServerStep input s (.proClientMsg c) s' next := by
  simp only [ServerCall.next] at hnext
  split at hnext
  · cases hnext
    exact idle
  · next fd hfd =>
    cases hnext
    apply received hfd
    cases input.ok with
    | true | false => simp

theorem of_cleanupClient (hnext : (ServerCall.cleanupClient c).next input s = some (s', next)) :
    ServerStep input s (.cleanupClient c) s' next := by
  simp only [ServerCall.next] at hnext
  split at hnext
  · cases hnext
    exact finished
  · cases hnext
    cases input.ok with
    | true => exact idle
    | false => exact finished

theorem of_process {msg : ServerMsg}
    (hnext : (ServerCall.process c msg).next input s = some (s', next)) :
    ServerStep input s (.process c msg) s' next := by
  cases msg with
  | createChannelReq =>
    simp only [ServerCall.next] at hnext
    split_ifs at hnext
    all_goals cases hnext
    · exact created
    · exact idle (fun _ h => h) (fun _ => rfl) (fun _ h => absurd h (by
        simp [ServerCall.creates]))
  | destroyChannelReq =>
    cases hnext
    exact closed
  | other =>
    cases hnext
    cases input.ok with
    | true => exact finished
    | false => exact idle

theorem of_trackChannel {ch : ℕ}
    (hnext : (ServerCall.trackChannel c ch).next input s = some (s', next)) :
    ServerStep input s (.trackChannel c ch) s' next := by
  simp only [ServerCall.next] at hnext
  split_ifs at hnext with hconnected
  all_goals cases hnext
  · exact tracked hconnected
  · exact idle
      (fun htables h => htables.gone_of_not_isConnected h (Bool.eq_false_of_not_eq_true hconnected))
      (fun _ => rfl) (fun _ h => absurd h (by simp [ServerCall.creates]))

variable {ok : Bool}

theorem of_next (hnext : call.next input s = some (s', next)) :
    ServerStep input s call s' next := by
  cases call with
  | acceptClient fd =>
    simp only [ServerCall.next] at hnext
    split_ifs at hnext with hfree hok
    all_goals cases hnext
    · exact accepted hfree
    · exact finished
  | advanceHandshake fd => exact of_advanceHandshake hnext
  | expireHandshake fd =>
    simp only [ServerCall.next] at hnext
    split at hnext
    all_goals cases hnext
    · exact finished
    · next c hpending => exact dropped (fun _ => rfl) hpending
  | handleClientEvent fd => exact of_handleClientEvent hnext
  | processPendingMsg fd =>
    simp only [ServerCall.next] at hnext
    split at hnext
    all_goals cases hnext
    · exact finished
    · next c hclient =>
      exact idle (fun htables _ => (htables.client_fd hclient).2)
  | proClientMsg c => exact of_proClientMsg hnext
  | cleanupClient c => exact of_cleanupClient hnext
  | cleanupFound c fd =>
    simp only [ServerCall.next] at hnext
    split_ifs at hnext with hclient
    all_goals cases hnext
    · exact disconnected hclient
    · exact finished
  | submitCleanup c =>
    cases hnext
    exact submitted
  | takeMsg =>
    simp only [ServerCall.next] at hnext
    split at hnext
    all_goals cases hnext
    next c msg queue hqueue =>
      apply taken hqueue
      cases input.ok with
      | true | false => simp
  | process c msg => exact of_process hnext
  | trackChannel c ch => exact of_trackChannel hnext
  | discardChannel c ch =>
    cases hnext
    exact discarded
  | respond c =>
    cases hnext
    cases input.ok with
    | true => exact finished
    | false => exact idle
  | findChannel c ok =>
    simp only [ServerCall.next] at hnext
    split at hnext
    all_goals cases hnext
    · next hchannel => exact foundNone hchannel
    · next ch hchannel => exact foundSome hchannel
  | destroyChannel c ch ok =>
    cases hnext
    exact destroyed
  | forgetClient c ok =>
    cases ok with
    | true =>
      cases hnext
      exact forgotten
    | false =>
      cases hnext
      exact idle (fun _ h => h.1)
  | failedProcess c =>
    simp only [ServerCall.next] at hnext
    split_ifs at hnext
    all_goals cases hnext
    · exact finished
    · exact idle
  | done => simp [ServerCall.next] at hnext

end ServerStep

namespace CsServer

structure Progress (s s' : CsServer) : Prop where
  started : ∀ {c}, s.Started c → s'.Started c
  gone : ∀ {c}, s.Gone c → s'.Gone c

variable {s s' : CsServer}

theorem progress_newConnection (s : CsServer) (fd : ℕ) : Progress s (s.newConnection fd) := by
  have hstarted : ∀ {c}, s.Started c → (s.newConnection fd).Started c := by
    intro c h
    constructor
    · exact Nat.lt_succ_of_lt h.1
    · intro fd'
      simp only [newConnection]
      split_ifs
      · exact h.2 fd'
      · intro hfound
        obtain ⟨-, rfl⟩ | ⟨-, hold⟩ := lookup_insert_cases hfound
        · exact Nat.lt_irrefl _ h.1
        · exact h.2 fd' hold
  exact ⟨hstarted, fun h => ⟨hstarted h.1, h.2⟩⟩

variable {c : ℕ}

theorem started_of_erase (h : s.Started c) (fd fd' : ℕ) :
    (s.pendingHandshakes.erase fd).lookup fd' ≠ some c :=
  fun hfound => h.2 fd' (lookup_of_erase hfound).2

theorem progress_dropHandshake (s : CsServer) (fd c : ℕ) : Progress s (s.dropHandshake fd c) := by
  constructor
  · exact fun h => ⟨h.1, started_of_erase h fd⟩
  · exact fun h => ⟨⟨h.1.1, started_of_erase h.1 fd⟩, h.2⟩

variable {fd : ℕ}

theorem progress_publishClient (hpending : s.pendingHandshakes.lookup fd = some c) :
    Progress s (s.publishClient fd c) := by
  constructor
  · exact fun h => ⟨h.1, started_of_erase h fd⟩
  · intro c' h
    constructor
    · exact ⟨h.1.1, started_of_erase h.1 fd⟩
    · intro fd' hfound
      obtain ⟨rfl, rfl⟩ | ⟨-, hold⟩ := lookup_insert_cases hfound
      · exact h.1.2 fd' hpending
      · exact h.2 fd' hold

theorem progress_disconnectClient (s : CsServer) (fd c : ℕ) :
    Progress s (s.disconnectClient fd c) := by
  constructor
  · exact fun h => h
  · exact fun h => ⟨h.1, fun fd' hfound => h.2 fd' (lookup_of_erase hfound).2⟩

/-! ## The tables stay consistent -/

section

variable (htables : s.Tables)

include htables

theorem Tables.fd_unused (hfree : s.fdFree fd = true) (c : ℕ) : s.fdOf c ≠ some fd := by
  by_cases hborn : c < s.nextConnection
  · have hall := List.all_eq_true.mp hfree c (List.mem_range.mpr hborn)
    exact of_decide_eq_true hall
  · rw [htables.unborn (Nat.le_of_not_lt hborn)]
    simp

theorem Tables.newConnection_pending (hfree : s.fdFree fd = true) :
    (s.newConnection fd).pendingHandshakes = s.pendingHandshakes.insert fd s.nextConnection := by
  have hnot : fd ∉ s.pendingHandshakes := by
    intro hmem
    obtain ⟨c, hpending⟩ := exists_lookup hmem
    exact htables.fd_unused hfree c (htables.pending_fd hpending).1
  simp [newConnection, hnot]

theorem Tables.newConnection (hfree : s.fdFree fd = true) : (s.newConnection fd).Tables := by
  have hold : ∀ {c}, c < s.nextConnection → (s.newConnection fd).fdOf c = s.fdOf c := by
    intro c hlt
    exact Function.update_of_ne hlt.ne _ _
  have hnew : (s.newConnection fd).fdOf s.nextConnection = some fd := Function.update_self _ _ _
  constructor
  · intro fd' c hclient
    obtain ⟨hopen, hstarted⟩ := htables.client_fd hclient
    rw [hold hstarted.1]
    exact ⟨hopen, (progress_newConnection s fd).started hstarted⟩
  · intro fd' c hpending
    rw [htables.newConnection_pending hfree] at hpending
    obtain ⟨rfl, rfl⟩ | ⟨-, hpending⟩ := lookup_insert_cases hpending
    · constructor
      · exact hnew
      constructor
      · exact Nat.lt_succ_self _
      · intro fd'' hclient
        exact absurd (htables.client_fd hclient).2.1 (Nat.lt_irrefl _)
    · obtain ⟨hopen, hlt, hnot⟩ := htables.pending_fd hpending
      rw [hold hlt]
      exact ⟨hopen, Nat.lt_succ_of_lt hlt, hnot⟩
  · intro fd' c c' hc hc'
    simp only [CsServer.newConnection, Function.update_apply] at hc hc'
    split_ifs at hc hc' with h h' h'
    · rw [h, h']
    · exact absurd (hc'.trans hc.symm) (htables.fd_unused hfree c')
    · exact absurd (hc.trans hc'.symm) (htables.fd_unused hfree c)
    · exact htables.fd_inj hc hc'
  · intro c hle
    have hlt : s.nextConnection < c := hle
    have hsame : (s.newConnection fd).fdOf c = s.fdOf c := Function.update_of_ne hlt.ne' _ _
    rw [hsame]
    exact htables.unborn hlt.le

theorem Tables.close (hgone : s.Gone c) : (s.close c).Tables := by
  have hold : ∀ {c'}, c' ≠ c → (s.close c).fdOf c' = s.fdOf c' := by
    intro c' hne
    exact Function.update_of_ne hne _ _
  have hclosed : (s.close c).fdOf c = none := Function.update_self _ _ _
  have hopen : ∀ {c' fd}, (s.close c).fdOf c' = some fd → s.fdOf c' = some fd := by
    intro c' fd h
    by_cases hc : c' = c
    · simp [hc, hclosed] at h
    · rwa [hold hc] at h
  constructor
  · intro fd c' hclient
    obtain ⟨hfd, hstarted⟩ := htables.client_fd hclient
    have hne : c' ≠ c := by
      intro heq
      exact hgone.2 fd (heq ▸ hclient)
    rw [hold hne]
    exact ⟨hfd, hstarted⟩
  · intro fd c' hpending
    have hne : c' ≠ c := by
      intro heq
      exact hgone.1.2 fd (heq ▸ hpending)
    rw [hold hne]
    exact htables.pending_fd hpending
  · intro fd c' c'' h h'
    exact htables.fd_inj (hopen h) (hopen h')
  · intro c' hle
    by_cases hc : c' = c
    · rw [hc, hclosed]
    · rw [hold hc]
      exact htables.unborn hle

theorem Tables.started_of_erased (hpending : s.pendingHandshakes.lookup fd = some c) (fd' : ℕ) :
    (s.pendingHandshakes.erase fd).lookup fd' ≠ some c := by
  intro herased
  obtain ⟨hne, hfound⟩ := lookup_of_erase herased
  have hopen := (htables.pending_fd hpending).1
  rw [(htables.pending_fd hfound).1] at hopen
  exact hne (Option.some.inj hopen)

theorem Tables.erasePending (fd : ℕ) :
    Tables { s with pendingHandshakes := s.pendingHandshakes.erase fd } :=
  { htables with
    client_fd := fun hclient => by
      obtain ⟨hopen, hstarted⟩ := htables.client_fd hclient
      exact ⟨hopen, hstarted.1, started_of_erase hstarted fd⟩
    pending_fd := fun hpending => htables.pending_fd (lookup_of_erase hpending).2 }

theorem Tables.dropHandshake (hpending : s.pendingHandshakes.lookup fd = some c) :
    (s.dropHandshake fd c).Tables := by
  apply (htables.erasePending fd).close
  obtain ⟨_, hlt, hnot⟩ := htables.pending_fd hpending
  exact ⟨⟨hlt, htables.started_of_erased hpending⟩, hnot⟩

theorem Tables.publishClient (hpending : s.pendingHandshakes.lookup fd = some c) :
    (s.publishClient fd c).Tables := by
  obtain ⟨hopen, hlt, hnot⟩ := htables.pending_fd hpending
  have herased := htables.erasePending fd
  refine { herased with client_fd := fun hclient => ?_, pending_fd := fun hother => ?_ }
  · obtain ⟨rfl, rfl⟩ | ⟨-, hclient⟩ := lookup_insert_cases hclient
    · exact ⟨hopen, hlt, htables.started_of_erased hpending⟩
    · exact herased.client_fd hclient
  · obtain ⟨hopen', hlt', hnot'⟩ := herased.pending_fd hother
    refine ⟨hopen', hlt', fun fd'' hfound => ?_⟩
    obtain ⟨rfl, rfl⟩ | ⟨-, hold⟩ := lookup_insert_cases hfound
    · exact htables.started_of_erased hpending _ hother
    · exact hnot' fd'' hold

theorem Tables.disconnectClient (fd c : ℕ) : (s.disconnectClient fd c).Tables :=
  { htables with
    client_fd := fun hclient => htables.client_fd (lookup_of_erase hclient).2
    pending_fd := fun hpending => by
      obtain ⟨hopen, hlt, hnot⟩ := htables.pending_fd hpending
      exact ⟨hopen, hlt, fun fd' hclient => hnot fd' (lookup_of_erase hclient).2⟩ }

end

end CsServer

namespace ServerStep

open CsServer

variable {input : ServerInput} {s s' : CsServer} {call next : ServerCall}

section

variable (hstep : ServerStep input s call s' next)

include hstep

theorem progress : Progress s s' := by
  cases hstep with
  | idle | received | submitted | taken | created | closed | tracked | discarded | foundNone
  | foundSome | destroyed | forgotten => exact ⟨id, id⟩
  | accepted hfree => exact progress_newConnection s _
  | dropped hholds hpending => exact progress_dropHandshake s _ _
  | published hpending hfree => exact progress_publishClient hpending
  | disconnected hclient => exact progress_disconnectClient s _ _

theorem tables (htables : s.Tables) (hcall : call.Works s) : s'.Tables := by
  cases hstep with
  | idle hworks hholds hcreates => exact htables
  | accepted hfree => exact htables.newConnection hfree
  | dropped hholds hpending => exact htables.dropHandshake hpending
  | published hpending hfree => exact htables.publishClient hpending
  | received | submitted | taken | created | tracked | discarded | foundNone | foundSome
  | destroyed | forgotten => exact { htables with }
  | disconnected hclient => exact htables.disconnectClient _ _
  | closed => exact htables.close hcall

end

end ServerStep

/-! ## Every call works on a connection in its proper state -/

variable {call : ServerCall}

theorem ServerCall.Works.mono {s s' : CsServer} (hprogress : CsServer.Progress s s')
    (hcall : call.Works s) : call.Works s' := by
  cases call with
  | process c msg =>
    cases msg with
    | createChannelReq | other => exact hprogress.started hcall
    | destroyChannelReq => exact hprogress.gone hcall
  | proClientMsg | cleanupClient | cleanupFound | trackChannel | respond | failedProcess =>
    exact hprogress.started hcall
  | submitCleanup | discardChannel | findChannel | destroyChannel | forgetClient =>
    exact hprogress.gone hcall
  | acceptClient | advanceHandshake | expireHandshake | handleClientEvent | processPendingMsg
  | takeMsg | done => trivial

namespace CsServer

/-- The worker of a queued message would find its connection in the proper
state. -/
def QueueWorks (s : CsServer) : Prop :=
  ∀ entry ∈ s.reqQueue, (ServerCall.process entry.1 entry.2).Works s

def Quiet (s : CsServer) : Prop := ∀ c, .destroyChannelReq ∉ s.sent c

variable {s : CsServer} {c : ℕ}

theorem QueueWorks.receiveMsgs (hqueue : s.QueueWorks) (hstarted : s.Started c)
    {msgs : List ServerMsg} (hquiet : (s.receiveMsgs c msgs).Quiet) :
    (s.receiveMsgs c msgs).QueueWorks := by
  intro entry hmem
  simp only [CsServer.receiveMsgs, submitMsgs, List.mem_append, List.mem_map] at hmem
  obtain hold | ⟨msg, hmsg, rfl⟩ := hmem
  · exact hqueue entry hold
  · cases msg with
    | createChannelReq | other => exact hstarted
    | destroyChannelReq =>
      have hsent : ServerMsg.destroyChannelReq ∈ (s.receiveMsgs c msgs).sent c := by
        simp [CsServer.receiveMsgs, hmsg]
      exact absurd hsent (hquiet c)

theorem QueueWorks.submitCleanup (hqueue : s.QueueWorks) (hgone : s.Gone c) :
    (s.submitMsgs c [.destroyChannelReq]).QueueWorks := by
  intro entry hmem
  simp only [submitMsgs, List.map_cons, List.map_nil, List.mem_append, List.mem_singleton] at hmem
  obtain hold | rfl := hmem
  · exact hqueue entry hold
  · exact hgone

end CsServer

namespace ServerStep

open CsServer

variable {input : ServerInput} {s s' : CsServer} {call next : ServerCall}

section

variable (hstep : ServerStep input s call s' next)

include hstep

theorem works (htables : s.Tables) (hqueue : s.QueueWorks) (hcall : call.Works s) :
    next.Works s' := by
  have hprogress := hstep.progress
  cases hstep with
  | idle hworks hholds hcreates => exact hworks htables hcall
  | accepted | dropped | published | submitted | forgotten => trivial
  | received hfd hnext =>
    obtain rfl | rfl := hnext
    · trivial
    · exact hprogress.started hcall
  | disconnected hclient =>
    obtain ⟨hopen, hstarted⟩ := htables.client_fd hclient
    constructor
    · exact hstarted
    · intro fd' herased
      obtain ⟨hne, hclient'⟩ := lookup_of_erase herased
      rw [(htables.client_fd hclient').1] at hopen
      exact hne (Option.some.inj hopen)
  | taken hentry hnext =>
    obtain rfl | rfl := hnext
    · apply ServerCall.Works.mono hprogress
      apply hqueue (_, _)
      rw [hentry]
      exact List.mem_cons_self
    · trivial
  | created | tracked => exact hprogress.started hcall
  | closed | foundNone | foundSome | destroyed => exact hprogress.gone hcall
  | discarded => exact (hprogress.gone hcall).1

theorem queue_cases : (s'.reqQueue ⊆ s.reqQueue ∧ s'.sent = s.sent) ∨
    (∃ c, call = .proClientMsg c ∧ s' = s.receiveMsgs c input.msgs) ∨
    (∃ c, call = .submitCleanup c ∧ s' = s.submitMsgs c [.destroyChannelReq]) := by
  cases hstep with
  | received hfd hnext => exact Or.inr (Or.inl ⟨_, rfl, rfl⟩)
  | submitted => exact Or.inr (Or.inr ⟨_, rfl, rfl⟩)
  | taken hentry hnext =>
    apply Or.inl
    rw [hentry]
    exact ⟨List.subset_cons_self _ _, rfl⟩
  | idle | accepted | dropped | published | disconnected | created | closed | tracked | discarded
  | foundNone | foundSome | destroyed | forgotten => exact Or.inl ⟨List.Subset.refl _, rfl⟩

theorem sent_sublist (c : ℕ) : (s.sent c).Sublist (s'.sent c) := by
  obtain ⟨_, hsent⟩ | ⟨c', rfl, rfl⟩ | ⟨c', rfl, rfl⟩ := hstep.queue_cases
  · rw [hsent]
  · simp only [CsServer.receiveMsgs, Function.update_apply]
    split_ifs with hc
    · rw [hc]
      exact List.sublist_append_left _ _
    · exact List.Sublist.refl _
  · exact List.Sublist.refl _

theorem quiet (hquiet : s'.Quiet) : s.Quiet := by
  intro c hmem
  exact hquiet c ((hstep.sent_sublist c).subset hmem)

end

end ServerStep

open CsServer

structure ServerInvariant (s : Config CsServer ServerCall) : Prop where
  tables : s.shared.Tables
  works : ∀ call ∈ s.calls, call.Works s.shared
  queue : s.shared.QueueWorks

theorem ServerInvariant.start : ServerInvariant serverStart := by
  constructor
  · constructor
    · intro fd c hclient
      simp [serverStart] at hclient
    · intro fd c hpending
      simp [serverStart] at hpending
    · intro fd c c' hc
      simp [serverStart] at hc
    · intro c hle
      rfl
  · intro call hmem
    simp [serverStart] at hmem
  · intro entry hmem
    simp [serverStart] at hmem

theorem ServerCall.works_of_starts (hstarts : call.starts = true) (s : CsServer) :
    call.Works s := by
  cases call with
  | acceptClient | expireHandshake | handleClientEvent | processPendingMsg | takeMsg => trivial
  | _ => simp [ServerCall.starts] at hstarts

variable {s : Config CsServer ServerCall}

theorem ServerInvariant.startCall (hinv : ServerInvariant s) (hstarts : call.starts = true) :
    ServerInvariant { s with calls := s.calls ++ [call] } := by
  constructor
  · exact hinv.tables
  · intro other hmem
    simp only [List.mem_append, List.mem_singleton] at hmem
    obtain hold | rfl := hmem
    · exact hinv.works other hold
    · exact ServerCall.works_of_starts hstarts s.shared
  · exact hinv.queue

theorem ServerInvariant.step (hinv : ServerInvariant s) {i : ℕ} {input : ServerInput}
    {next : ServerCall} {shared : CsServer} (hcall : s.calls[i]? = some call)
    (hstep : ServerStep input s.shared call shared next) (hquiet : shared.Quiet) :
    ServerInvariant { shared := shared, calls := s.calls.set i next } := by
  have hworks := hinv.works call (List.mem_of_getElem? hcall)
  constructor
  · exact hstep.tables hinv.tables hworks
  · intro other hmem
    obtain hold | rfl := List.mem_or_eq_of_mem_set hmem
    · exact (hinv.works other hold).mono hstep.progress
    · exact hstep.works hinv.tables hinv.queue hworks
  · obtain ⟨hsubset, _⟩ | ⟨c, rfl, rfl⟩ | ⟨c, rfl, rfl⟩ := hstep.queue_cases
    · exact fun entry hmem => (hinv.queue entry (hsubset hmem)).mono hstep.progress
    · exact hinv.queue.receiveMsgs hworks hquiet
    · exact hinv.queue.submitCleanup hworks

theorem serverInvariant_run {actions : List (Action ServerCall ServerInput)}
    (hrun : serverProgram.run serverStart actions = some s) (hquiet : s.shared.Quiet) :
    ServerInvariant s := by
  apply Program.run_invariant (fun s => s.shared.Quiet → ServerInvariant s)
    _ _ actions hrun _ hquiet
  · intro s call hstarts hinv hquiet
    exact (hinv hquiet).startCall hstarts
  · intro s i input call next shared hcall hnext hinv hquiet
    have hstep := ServerStep.of_next hnext
    exact (hinv (hstep.quiet hquiet)).step hcall hstep hquiet
  · intro _
    exact ServerInvariant.start

def ServerCall.connection : ServerCall → Option ℕ
  | .proClientMsg c | .cleanupClient c | .cleanupFound c _ => some c
  | .submitCleanup c | .process c _ | .trackChannel c _ => some c
  | .discardChannel c _ | .respond c | .findChannel c _ => some c
  | .destroyChannel c _ _ | .forgetClient c _ | .failedProcess c => some c
  | _ => none

def Settled (s : Config CsServer ServerCall) (c : ℕ) : Prop :=
  (∀ call ∈ s.calls, call.connection ≠ some c) ∧ ∀ entry ∈ s.shared.reqQueue, entry.1 ≠ c

instance (s : Config CsServer ServerCall) (c : ℕ) : Decidable (Settled s c) :=
  inferInstanceAs (Decidable (_ ∧ _))

/-- A closed connection leaves `clients_`, and a handshake that completes
publishes its connection. -/
structure ForgetsClosed (s : Config CsServer ServerCall) : Prop where
  forgotten : ∀ c < s.shared.nextConnection, s.shared.fdOf c = none →
    Settled s c → ∀ fd, s.shared.clients.lookup fd ≠ some c
  admitted : ∀ fd c (input : ServerInput),
    s.shared.pendingHandshakes.lookup fd = some c →
    input.handshake = .complete →
    ∃ s', (ServerCall.advanceHandshake fd).next input s.shared =
      some (s', .done) ∧ s'.clients.lookup fd = some c

theorem csServer_forgets_closed_connections (actions : List (Action ServerCall ServerInput))
    (s : Config CsServer ServerCall) (hrun : serverProgram.run serverStart actions = some s)
    (hquiet : s.shared.Quiet) : ForgetsClosed s := by
  have hinv := serverInvariant_run hrun hquiet
  constructor
  · intro c hborn hclosed hsettled fd hclient
    have hopen := (hinv.tables.client_fd hclient).1
    simp [hclosed] at hopen
  · intro fd c input hpending hcomplete
    have hfree := hinv.tables.pending_free hpending
    have hnext : (ServerCall.advanceHandshake fd).next input s.shared =
        some (s.shared.publishClient fd c, .done) := by
      simp [ServerCall.next, hpending, hcomplete, hfree]
    exact ⟨_, hnext, AList.lookup_insert _⟩

def lostClientRun : List (Action ServerCall ServerInput) :=
  [.start (.acceptClient 5), .run 0 {}, .run 0 {},
   .start (.handleClientEvent 5), .run 1 { hangup := true }, .run 1 {},
   .run 1 {}, .run 1 {}, .start .takeMsg, .run 2 {}, .run 2 {}, .run 2 {},
   .run 2 {}]

theorem csServer_forgets_lost_client : ∃ s, serverProgram.run serverStart lostClientRun = some s ∧
      s.shared.fdOf 0 = none ∧ Settled s 0 ∧ ForgetsClosed s := by
  have hquiet : ∀ s, serverProgram.run serverStart lostClientRun = some s →
      s.shared.Quiet := by
    intro s hrun c
    cases hrun
    exact List.not_mem_nil
  exact ⟨_, rfl, rfl, by decide,
    csServer_forgets_closed_connections lostClientRun _ rfl (hquiet _ rfl)⟩

/-- The peer itself sends `kDestroyChannelReq`.  The processor closes the
connection without removing it from `clients_`; the next connection gets the
same descriptor. -/
def wireDestroyRun : List (Action ServerCall ServerInput) :=
  [.start (.acceptClient 5), .run 0 {}, .run 0 {}, .start (.handleClientEvent 5), .run 1 {},
   .run 1 { msgs := [.destroyChannelReq] },
   .start .takeMsg, .run 2 {}, .run 2 {}, .run 2 {}, .run 2 {},
   .start (.acceptClient 5), .run 3 {}]

theorem csServer_keeps_wire_destroyed_connection :
    ∃ s, serverProgram.run serverStart wireDestroyRun = some s ∧
      s.shared.fdOf 0 = none ∧ Settled s 0 ∧ s.shared.clients.lookup 5 = some 0 ∧
      s.shared.pendingHandshakes.lookup 5 = some 1 ∧
      (ServerCall.advanceHandshake 5).next {} s.shared = some (s.shared.dropHandshake 5 1, .done) ∧
      ¬ForgetsClosed s := by
  have hkept : ∀ s, serverProgram.run serverStart wireDestroyRun = some s → ¬ForgetsClosed s := by
    intro s hrun hforgets
    cases hrun
    exact hforgets.forgotten 0 (by decide) rfl (by decide) 5 rfl
  exact ⟨_, rfl, rfl, by decide, rfl, rfl, rfl, hkept _ rfl⟩

end Hixl
