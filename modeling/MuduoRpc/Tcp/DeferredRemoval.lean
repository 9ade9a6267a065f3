import MuduoRpc.Tcp.Removals

/-!
Deferred removal. A channel that the loop has still to handle is registered: nothing
that an iteration runs, and no call made from inside it, removes a channel but a
connector's handlers, and these remove the one that is being handled.
`connectDestroyed` always comes as a functor, whichever loops are involved, or from a
server's destructor.
-/

namespace MuduoRpc

namespace Process

variable {T : Type}

/-- The assertion in `EventLoop::removeChannel`. -/
def Call.asserted (call : Call) : Bool :=
  !call.loop.eventHanding_ || decide (call.loop.currentActiveChannel_ = some call.channel) ||
    decide (call.channel ∉ call.loop.activeChannels_)

/-- A removal during an iteration: a connector's, of the channel that is handled. -/
def Call.OfCurrent (call : Call) : Prop :=
  call.loop.eventHanding_ = true → (∃ client sockfd, call.channel = .connector client sockfd) ∧
    call.loop.currentActiveChannel_ = some call.channel ∧ call.channel ∉ call.loop.waiting

theorem Call.OfCurrent.asserted {call : Call} (h : call.OfCurrent) : call.asserted = true := by
  cases hhanding : call.loop.eventHanding_ with
  | false => simp [Call.asserted, hhanding]
  | true => simp [Call.asserted, (h hhanding).2.1]

/-- Between iterations nothing is active, and an iteration has each channel once. -/
structure Loop.Sound (l : Loop) : Prop where
  phase : l.callingPendingFunctors_ = true → l.eventHanding_ = false
  idle : l.eventHanding_ = false → l.waiting = [] ∧ l.currentActiveChannel_ = none
  nodup : l.waiting.Nodup
  current : ∀ channel, l.currentActiveChannel_ = some channel → channel ∉ l.waiting

theorem Loop.Sound.handing_of_waiting {l : Loop} (h : l.Sound) {channel : ChannelId}
    (hmem : channel ∈ l.waiting) : l.eventHanding_ = true := by
  cases hhanding : l.eventHanding_ with
  | false =>
      rw [(h.idle hhanding).1] at hmem
      cases hmem
  | true => rfl

theorem Loop.Sound.handing_of_running {l : Loop} (h : l.Sound) (hrun : l.running = true) :
    l.eventHanding_ = false :=
  h.phase (Bool.and_eq_true_iff.mp hrun).1

/-- What an iteration does not run. -/
theorem Loop.allowsClient_handing [DecidableEq T] {l : Loop} (hl : l.running = false)
    {rests : Bool} {run : TcpClient.Run T} {a : TcpClient.Run.Action T}
    (ha : l.allowsClient rests a = true) :
    Client.destroys run a = none ∧
      ∀ a', a = .client (.connector a') → Connector.loopTask a' = false := by
  constructor
  · unfold Client.destroys
    split
    · simp [Loop.allowsClient, Loop.allows, hl] at ha
    · rfl
  · rintro a' rfl
    cases a' with
    | run _ => simp [Loop.allowsClient, Loop.allowsConnector, hl] at ha
    | dispatch _ => cases ha
    | start _ | stop _ | restart | push _ _ | swap | work _ => rfl

variable [DecidableEq T] {s s' : Process T}

/-- The invariant of the loops and of what lives on them. -/
structure Inv (s : Process T) : Prop where
  loops : ∀ loop, (s.loops loop).Sound
  registered : ∀ loop, ∀ channel ∈ (s.loops loop).waiting, s.registered loop channel = true
  handling : ∀ (client : Nat) (c : Client T), s.clients[client]? = some c →
    ∀ callback, .callback callback ∈ c.run.client.connector_.work →
      (s.loops c.loop_).eventHanding_ = true ∧
        ∃ channel, c.run.client.connector_.channel_ = some channel ∧
          (s.loops c.loop_).currentActiveChannel_ = some (.connector client channel.fd_)
  leaving : ∀ (server : Nat) (r : TcpServer.Run T), s.servers[server]? = some r → r.leaving.getD [] ≠ [] →
    (s.loops r.server.loop_).eventHanding_ = false
  destroyed : ∀ call ∈ s.destroyed, call.loop.eventHanding_ = false
  removed : ∀ call ∈ s.removed, call.OfCurrent

/-- Replacing one client: what it had registered stays so. -/
theorem registered_setClient {client : Nat} {c c' : Client T} {loop : T} {channel : ChannelId}
    {destroyed removed : List Call} (hc : s.clients[client]? = some c) (hloop : c'.loop_ = c.loop_)
    (hconnector : ∀ sockfd, channel = .connector client sockfd → c.loop_ = loop →
      sockfd ∈ c.run.client.connector_.registered →
        sockfd ∈ c'.run.client.connector_.registered)
    (hopened : ∀ index, channel = .opened client index → c.loop_ = loop →
      TcpClient.AddedAt c.run.client index → TcpClient.AddedAt c'.run.client index)
    (h : s.registered loop channel = true) :
    ({ s with
      clients := s.clients.set client c'
      destroyed := destroyed
      removed := removed } : Process T).registered loop channel = true := by
  obtain ⟨hlt, _⟩ := List.getElem?_eq_some_iff.mp hc
  cases channel with
  | wakeup | acceptor _ | accepted _ _ => exact h
  | connector other sockfd =>
      by_cases hsame : client = other
      · subst hsame
        simp only [registered, hc, Option.any_some, Bool.and_eq_true, decide_eq_true_eq] at h
        simp only [registered, List.getElem?_set_self hlt, Option.any_some, Bool.and_eq_true,
          decide_eq_true_eq, hloop]
        exact ⟨h.1, hconnector sockfd rfl h.1 h.2⟩
      · simpa only [registered, List.getElem?_set_ne hsame] using h
  | opened other index =>
      by_cases hsame : client = other
      · subst hsame
        simp only [registered, hc, Option.any_some, Bool.and_eq_true, decide_eq_true_eq,
          Option.any_eq_true] at h
        simp only [registered, List.getElem?_set_self hlt, Option.any_some, Bool.and_eq_true,
          decide_eq_true_eq, hloop, Option.any_eq_true]
        exact ⟨h.1, hopened index rfl h.1 h.2⟩
      · simpa only [registered, List.getElem?_set_ne hsame] using h

/-- In the middle of an iteration a connector keeps its channel, and a removal is that
of the channel being handled. -/
theorem Inv.connector_step (h : Inv s) {client : Nat} {c : Client T} {run : TcpClient.Run T}
    {a : TcpClient.Run.Action T} (hc : s.clients[client]? = some c)
    (htask : ∀ a', a = .client (.connector a') → Connector.loopTask a' = false)
    (hnext : c.run.next c.loop_ a = some run) :
    Connector.Stays c.run.client.connector_ run.client.connector_ ∨
      ∃ channel channel', c.run.client.connector_.channel_ = some channel ∧
        run.client.connector_.channel_ = some channel' ∧ channel'.fd_ = channel.fd_ ∧
        (s.loops c.loop_).currentActiveChannel_ = some (.connector client channel.fd_) ∧
        Connector.deregistered run.client.connector_.ops =
          Connector.deregistered c.run.client.connector_.ops ++ [channel.fd_] := by
  rcases (TcpClient.Run.next_cases hnext).1 with hstays | ⟨a', ha, hstep⟩
  · exact .inl hstays
  · rcases Connector.stays_or_removes (htask a' ha) hstep with hstays | ⟨_, hremoves⟩
    · exact .inl hstays
    · obtain ⟨callback, hdue⟩ := hremoves.due
      obtain ⟨channel, channel', hchannel, hafter, hfd, hops⟩ := hremoves.channel_
      obtain ⟨_, other, hother, hcurrent⟩ := h.handling client c hc callback hdue
      cases hchannel.symm.trans hother
      exact .inr ⟨channel, channel', hchannel, hafter, hfd, hcurrent, hops⟩

theorem stepClient_eq {client : Nat} {a : TcpClient.Run.Action T} {c : Client T}
    (hc : s.clients[client]? = some c) (h : s.stepClient client a = some s') :
    ∃ run, c.run.next c.loop_ a = some run ∧ s' = { s with
      clients := s.clients.set client { c with run := run }
      destroyed := s.destroyed ++ (Client.destroys c.run a).toList.map fun index =>
        ⟨s.loops c.loop_, .opened client index⟩
      removed := s.removed ++ ((Client.destroys c.run a).toList.map fun index =>
        ⟨s.loops c.loop_, .opened client index⟩) ++
        ((Connector.deregistered run.client.connector_.ops).drop
          (Connector.deregistered c.run.client.connector_.ops).length).map fun sockfd =>
            ⟨s.loops c.loop_, .connector client sockfd⟩ } := by
  simp only [stepClient, hc, Option.bind_eq_bind, Option.bind_some] at h
  obtain ⟨run, hnext, hresult⟩ := Option.bind_eq_some_iff.mp h
  exact ⟨run, hnext, (Option.some.inj hresult).symm⟩

/-- The calls that a step of a client makes, when the loop is not in an iteration or
runs what it runs there. -/
theorem Inv.stepClient (h : Inv s) {client : Nat} {a : TcpClient.Run.Action T} {c : Client T}
    (hc : s.clients[client]? = some c)
    (hdispatch : ∀ revents, a ≠ .client (.connector (.dispatch revents)))
    (hhanding : (s.loops c.loop_).eventHanding_ = true → Client.destroys c.run a = none ∧
      ∀ a', a = .client (.connector a') → Connector.loopTask a' = false)
    (hstep : s.stepClient client a = some s') : Inv s' := by
  obtain ⟨run, hnext, rfl⟩ := stepClient_eq hc hstep
  obtain ⟨hconnector, hconnections⟩ := TcpClient.Run.next_cases hnext
  obtain ⟨hlt, _⟩ := List.getElem?_eq_some_iff.mp hc
  have hdestroyed (call : Call) (hmem : call ∈ (Client.destroys c.run a).toList.map fun index =>
      (⟨s.loops c.loop_, .opened client index⟩ : Call)) : call.loop.eventHanding_ = false := by
    obtain ⟨index, hindex, rfl⟩ := List.mem_map.mp hmem
    by_contra hhanding'
    rw [(hhanding (Bool.eq_true_of_not_eq_false hhanding')).1] at hindex
    cases hindex
  constructor
  · exact h.loops
  · intro loop channel hmem
    refine registered_setClient hc rfl ?_ ?_ (h.registered loop channel hmem)
    · rintro sockfd rfl rfl hregistered
      have hiteration := (h.loops _).handing_of_waiting hmem
      rcases h.connector_step hc (hhanding hiteration).2 hnext with hstays | hremoves
      · exact hstays.registered hregistered
      · obtain ⟨channel, _, hchannel, _, _, hcurrent, _⟩ := hremoves
        have hfd : sockfd = channel.fd_ := by
          simp only [Connector.registered, hchannel] at hregistered
          split_ifs at hregistered
          · exact List.mem_singleton.mp hregistered
          · cases hregistered
        subst hfd
        exact absurd hmem ((h.loops _).current _ hcurrent)
    · rintro index rfl rfl hadded
      refine hconnections index ?_ hadded
      rw [(hhanding ((h.loops _).handing_of_waiting hmem)).1]
      simp
  · intro other c' hc' callback hmem
    by_cases hsame : client = other
    · subst hsame
      rw [List.getElem?_set_self hlt] at hc'
      cases hc'
      have hdue : .callback callback ∈ c.run.client.connector_.work := by
        rcases hconnector with hstays | ⟨a', rfl, hcall⟩
        · exact hstays.work callback hmem
        · refine Connector.callback_next ?_ hcall hmem
          rintro revents rfl
          exact hdispatch revents rfl
      obtain ⟨hiteration, channel, hchannel, hcurrent⟩ := h.handling client c hc callback hdue
      refine ⟨hiteration, ?_⟩
      rcases h.connector_step hc (hhanding hiteration).2 hnext with hstays | hremoves
      · obtain ⟨channel', hafter, hfd, _⟩ := hstays.channel_ channel hchannel
        exact ⟨channel', hafter, by rw [hfd]; exact hcurrent⟩
      · obtain ⟨other, channel', hother, hafter, hfd, _⟩ := hremoves
        cases hchannel.symm.trans hother
        exact ⟨channel', hafter, by rw [hfd]; exact hcurrent⟩
    · rw [List.getElem?_set_ne hsame] at hc'
      exact h.handling other c' hc' callback hmem
  · exact h.leaving
  · intro call hmem
    rcases List.mem_append.mp hmem with hold | hnew
    · exact h.destroyed call hold
    · exact hdestroyed call hnew
  · intro call hmem hiteration
    rcases List.mem_append.mp hmem with hbefore | hremoved
    · rcases List.mem_append.mp hbefore with hold | hnew
      · exact h.removed call hold hiteration
      · rw [hdestroyed call hnew] at hiteration
        cases hiteration
    · obtain ⟨sockfd, hsockfd, rfl⟩ := List.mem_map.mp hremoved
      rcases h.connector_step hc (hhanding hiteration).2 hnext with hstays | hremoves
      · rw [hstays.ops, List.drop_length] at hsockfd
        cases hsockfd
      · obtain ⟨channel, _, _, _, _, hcurrent, hops⟩ := hremoves
        rw [hops, List.drop_left] at hsockfd
        obtain rfl := List.mem_singleton.mp hsockfd
        exact ⟨⟨client, _, rfl⟩, hcurrent, (h.loops _).current _ hcurrent⟩

theorem registered_setServer {server : Nat} {r r' : TcpServer.Run T} {a : TcpServer.Run.Action T}
    {loop : T} {channel : ChannelId} {destroyed removed : List Call}
    (hr : s.servers[server]? = some r) (hgoes : TcpServer.Run.Goes r a r')
    (hacceptor : channel = .acceptor server → r.server.loop_ = loop →
      r.removesAcceptor a = false)
    (hdestroys : ∀ index, channel = .accepted server index → r.getloop index = some loop →
      r.destroys a ≠ some index)
    (h : s.registered loop channel = true) :
    ({ s with
      servers := s.servers.set server r'
      destroyed := destroyed
      removed := removed } : Process T).registered loop channel = true := by
  obtain ⟨hlt, _⟩ := List.getElem?_eq_some_iff.mp hr
  cases channel with
  | wakeup | connector _ _ | opened _ _ => exact h
  | acceptor other =>
      by_cases hsame : server = other
      · subst hsame
        simp only [registered, hr, Option.any_some, Bool.and_eq_true, decide_eq_true_eq] at h
        simp only [registered, List.getElem?_set_self hlt, Option.any_some, Bool.and_eq_true,
          decide_eq_true_eq, hgoes.loop_]
        exact ⟨h.1, hgoes.acceptor (hacceptor rfl h.1) h.2⟩
      · simpa only [registered, List.getElem?_set_ne hsame] using h
  | accepted other index =>
      by_cases hsame : server = other
      · subst hsame
        simp only [registered, hr, Option.any_some, Bool.and_eq_true, decide_eq_true_eq,
          Option.any_eq_true] at h
        simp only [registered, List.getElem?_set_self hlt, Option.any_some, Bool.and_eq_true,
          decide_eq_true_eq, Option.any_eq_true]
        exact ⟨hgoes.getloop index loop h.1,
          hgoes.connections index (hdestroys index rfl h.1) h.2⟩
      · simpa only [registered, List.getElem?_set_ne hsame] using h

theorem stepServer_eq {server : Nat} {a : TcpServer.Run.Action T} {r : TcpServer.Run T}
    (hr : s.servers[server]? = some r) (h : s.stepServer server a = some s') :
    ∃ run, r.next a = some run ∧ ∃ destroyed acceptor : List Call, s' = { s with
      servers := s.servers.set server run
      destroyed := s.destroyed ++ destroyed
      removed := s.removed ++ destroyed ++ acceptor } ∧
      (∀ call ∈ destroyed, ∃ index loop, r.destroys a = some index ∧
        r.getloop index = some loop ∧ call.loop = s.loops loop) ∧
      ∀ call ∈ acceptor, r.removesAcceptor a = true ∧ call.loop = s.loops r.server.loop_ := by
  simp only [stepServer, hr, Option.bind_eq_bind, Option.bind_some] at h
  obtain ⟨run, hnext, hresult⟩ := Option.bind_eq_some_iff.mp h
  refine ⟨run, hnext, _, _, (Option.some.inj hresult).symm, ?_, ?_⟩
  · intro call hmem
    obtain ⟨index, hindex, hloops⟩ := List.mem_flatMap.mp hmem
    obtain ⟨loop, hloop, rfl⟩ := List.mem_map.mp hloops
    exact ⟨index, loop, Option.mem_toList.mp hindex, Option.mem_toList.mp hloop, rfl⟩
  · intro call hmem
    split_ifs at hmem with hacceptor
    · obtain rfl := List.mem_singleton.mp hmem
      exact ⟨hacceptor, rfl⟩
    · cases hmem

/-- A step of a server that removes channels between iterations only. -/
theorem Inv.stepServer (h : Inv s) {server : Nat} {a : TcpServer.Run.Action T}
    {r : TcpServer.Run T} (hr : s.servers[server]? = some r)
    (hdestroys : ∀ index loop, r.destroys a = some index → r.getloop index = some loop →
      (s.loops loop).eventHanding_ = false)
    (hbase : a = .destroy ∨ r.removesAcceptor a = true →
      (s.loops r.server.loop_).eventHanding_ = false)
    (hstep : s.stepServer server a = some s') : Inv s' := by
  obtain ⟨run, hnext, destroyed, acceptor, rfl, hmade, hacceptor⟩ := stepServer_eq hr hstep
  have hgoes := TcpServer.Run.next_goes hnext
  obtain ⟨hlt, _⟩ := List.getElem?_eq_some_iff.mp hr
  have hdestroyed (call : Call) (hmem : call ∈ destroyed) : call.loop.eventHanding_ = false := by
    obtain ⟨index, loop, hindex, hloop, hcall⟩ := hmade call hmem
    rw [hcall]
    exact hdestroys index loop hindex hloop
  constructor
  · exact h.loops
  · intro loop channel hmem
    have hiteration := (h.loops loop).handing_of_waiting hmem
    refine registered_setServer hr hgoes ?_ ?_ (h.registered loop channel hmem)
    · rintro rfl rfl
      by_contra hremoves
      rw [hbase (.inr (Bool.eq_true_of_not_eq_false hremoves))] at hiteration
      cases hiteration
    · rintro index rfl hloop hindex
      rw [hdestroys index loop hindex hloop] at hiteration
      cases hiteration
  · exact h.handling
  · intro other r' hr' hleaving
    by_cases hsame : server = other
    · subst hsame
      rw [List.getElem?_set_self hlt] at hr'
      cases hr'
      rw [hgoes.loop_]
      by_cases ha : a = .destroy
      · exact hbase (.inl ha)
      · exact h.leaving server r hr (hgoes.leaving ha hleaving)
    · rw [List.getElem?_set_ne hsame] at hr'
      exact h.leaving other r' hr' hleaving
  · intro call hmem
    rcases List.mem_append.mp hmem with hold | hnew
    · exact h.destroyed call hold
    · exact hdestroyed call hnew
  · intro call hmem hiteration
    rcases List.mem_append.mp hmem with hbefore | hremoved
    · rcases List.mem_append.mp hbefore with hold | hnew
      · exact h.removed call hold hiteration
      · rw [hdestroyed call hnew] at hiteration
        cases hiteration
    · obtain ⟨hremoves, hcall⟩ := hacceptor call hremoved
      rw [hcall, hbase (.inr hremoves)] at hiteration
      cases hiteration

omit [DecidableEq T] in
theorem Loop.running_of_allows {l : Loop} {rests : Bool} {answers : TcpConnection.Answers}
    (h : l.allows rests (.run answers : TcpConnection.Action T) = true) : l.running = true :=
  (Bool.and_eq_true_iff.mp h).1

/-- An allowed step of a server. -/
theorem Inv.server (h : Inv s) {server : Nat} {a : TcpServer.Run.Action T} {r : TcpServer.Run T}
    (hr : s.servers[server]? = some r) (hallows : s.allowsServer r a = true)
    (hguard : outsideCallbacks s (.server server a) = true)
    (hstep : s.stepServer server a = some s') : Inv s' := by
  obtain ⟨run, hnext, _⟩ := stepServer_eq hr hstep
  apply h.stepServer hr _ _ hstep
  · intro index loop hindex hloop
    cases a with
    | connection other a =>
        cases a with
        | run answers =>
            simp only [TcpServer.Run.destroys] at hindex
            split_ifs at hindex
            cases hindex
            simp only [allowsServer, hloop, Option.any_some] at hallows
            exact (h.loops loop).handing_of_running (Loop.running_of_allows hallows)
        | _ => cases hindex
    | run other =>
        have hother := TcpServer.Run.getloop_of_destroys hnext hindex
        cases hloop.symm.trans hother
        exact (h.loops loop).handing_of_running (Bool.and_eq_true_iff.mp hallows).1
    | leave =>
        have hbase := h.leaving server r hr (TcpServer.Run.leaving_of_leave hnext)
        simp only [TcpServer.Run.destroys] at hindex
        split at hindex
        · split_ifs at hindex with hhere
          cases hindex
          cases hloop.symm.trans hhere
          exact hbase
        · cases hindex
    | _ => cases hindex
  · rintro (rfl | hremoves)
    · simpa [outsideCallbacks, hr] using hguard
    · cases a with
      | leave => exact h.leaving server r hr (TcpServer.Run.leaving_of_leave hnext)
      | _ => cases hremoves

/-- An allowed step of a client. -/
theorem Inv.client (h : Inv s) {client : Nat} {a : TcpClient.Run.Action T} {c : Client T}
    (hc : s.clients[client]? = some c)
    (hallows : (s.loops c.loop_).allowsClient (s.rests c.loop_) a = true)
    (hstep : s.stepClient client a = some s') : Inv s' := by
  apply h.stepClient hc _ _ hstep
  · rintro revents rfl
    cases hallows
  · intro hiteration
    apply Loop.allowsClient_handing _ hallows
    by_contra hrunning
    rw [(h.loops c.loop_).handing_of_running (Bool.eq_true_of_not_eq_false hrunning)] at hiteration
    cases hiteration

/-- A loop takes a step of its own while its thread is at rest, or changes nothing that
the handlers in progress are about. -/
theorem Inv.setLoop (h : Inv s) {loop : T} {l : Loop} (hsound : l.Sound)
    (hregistered : ∀ channel ∈ l.waiting, s.registered loop channel = true)
    (hhandling : ∀ (client : Nat) (c : Client T), s.clients[client]? = some c → c.loop_ = loop →
      ∀ callback, .callback callback ∈ c.run.client.connector_.work →
        l.eventHanding_ = true ∧ l.currentActiveChannel_ = (s.loops loop).currentActiveChannel_)
    (hleaving : ∀ (server : Nat) (r : TcpServer.Run T), s.servers[server]? = some r →
      r.server.loop_ = loop → r.leaving.getD [] ≠ [] → l.eventHanding_ = false) :
    Inv (s.setLoop loop l) := by
  constructor
  · intro other
    by_cases hsame : other = loop
    · subst hsame
      simpa [Process.setLoop] using hsound
    · simpa [Process.setLoop, Function.update_of_ne hsame] using h.loops other
  · intro other channel hmem
    by_cases hsame : other = loop
    · subst hsame
      exact hregistered channel (by simpa [Process.setLoop] using hmem)
    · exact h.registered other channel
        (by simpa [Process.setLoop, Function.update_of_ne hsame] using hmem)
  · intro client c hc callback hmem
    obtain ⟨hiteration, channel, hchannel, hcurrent⟩ := h.handling client c hc callback hmem
    by_cases hsame : c.loop_ = loop
    · obtain ⟨hhanding, hkept⟩ := hhandling client c hc hsame callback hmem
      subst hsame
      simp only [Process.setLoop, Function.update_self]
      exact ⟨hhanding, channel, hchannel, hkept.trans hcurrent⟩
    · simp only [Process.setLoop, Function.update_of_ne hsame]
      exact ⟨hiteration, channel, hchannel, hcurrent⟩
  · intro server r hr hmore
    by_cases hsame : r.server.loop_ = loop
    · have hhanding := hleaving server r hr hsame hmore
      subst hsame
      simpa [Process.setLoop] using hhanding
    · simpa [Process.setLoop, Function.update_of_ne hsame] using h.leaving server r hr hmore
  · exact h.destroyed
  · exact h.removed

/-- A thread at rest has no handler in progress, and no destructor. -/
theorem work_of_rests {loop : T} (h : s.rests loop = true) {client : Nat} {c : Client T}
    (hc : s.clients[client]? = some c) (hloop : c.loop_ = loop) :
    c.run.client.connector_.work = [] := by
  have hclient := List.all_eq_true.mp (Bool.and_eq_true_iff.mp h).2 c (List.mem_of_getElem? hc)
  simp only [Client.rests, hloop, Connector.idle, ne_eq, not_true_eq_false, decide_false,
    Bool.false_or, Bool.and_eq_true, List.isEmpty_iff] at hclient
  exact hclient.1.2.1

theorem leaving_of_rests {loop : T} (h : s.rests loop = true) {server : Nat}
    {r : TcpServer.Run T} (hr : s.servers[server]? = some r) (hloop : r.server.loop_ = loop) :
    r.leaving.getD [] = [] := by
  have hserver := List.all_eq_true.mp (Bool.and_eq_true_iff.mp h).1 r (List.mem_of_getElem? hr)
  simp only [TcpServer.Run.rests, hloop, ne_eq, not_true_eq_false, decide_false, Bool.false_or,
    Bool.and_eq_true, List.isEmpty_iff] at hserver
  exact hserver.1.2

/-- The dispatch of a connector's channel makes its handlers due. -/
theorem Inv.dispatchConnector (h : Inv s) {client sockfd : Nat} {revents : BitVec 32} {loop : T}
    (hiteration : (s.loops loop).eventHanding_ = true)
    (hcurrent : (s.loops loop).currentActiveChannel_ = some (.connector client sockfd))
    (hregistered : s.registered loop (.connector client sockfd) = true)
    (hstep : s.stepClient client (.client (.connector (.dispatch revents))) = some s') :
    Inv s' := by
  obtain ⟨c, hc, hlive⟩ := (Option.any_eq_true _ _).mp hregistered
  simp only [Bool.and_eq_true, decide_eq_true_eq] at hlive
  obtain ⟨rfl, hsockfd⟩ := hlive
  obtain ⟨run, hnext, rfl⟩ := stepClient_eq hc hstep
  obtain ⟨hlt, _⟩ := List.getElem?_eq_some_iff.mp hc
  obtain ⟨hconnector, hconnections⟩ := TcpClient.Run.next_cases hnext
  obtain ⟨channel, hchannel, hfd⟩ : ∃ channel, c.run.client.connector_.channel_ = some channel ∧
      channel.fd_ = sockfd := by
    cases hchannel : c.run.client.connector_.channel_ with
    | none => simp [Connector.registered, hchannel] at hsockfd
    | some channel =>
        simp only [Connector.registered, hchannel] at hsockfd
        split_ifs at hsockfd
        · exact ⟨channel, rfl, (List.mem_singleton.mp hsockfd).symm⟩
        · cases hsockfd
  obtain ⟨hops, hkept, channel', hafter, hfd'⟩ :
      Connector.deregistered run.client.connector_.ops =
        Connector.deregistered c.run.client.connector_.ops ∧
      (∀ fd ∈ c.run.client.connector_.registered, fd ∈ run.client.connector_.registered) ∧
      ∃ channel', run.client.connector_.channel_ = some channel' ∧
        channel'.fd_ = channel.fd_ := by
    rcases hconnector with hstays | ⟨a', ha, hdispatch⟩
    · obtain ⟨channel', hafter, hsame, _⟩ := hstays.channel_ channel hchannel
      exact ⟨hstays.ops, fun _ hmem => hstays.registered hmem, channel', hafter, hsame⟩
    · cases ha
      generalize run.client.connector_ = connector at hdispatch ⊢
      cases Connector.next_steps hdispatch with
      | dispatch => exact ⟨rfl, fun _ hmem => hmem, channel, hchannel, rfl⟩
  constructor
  · exact h.loops
  · intro loop other hmem
    refine registered_setClient hc rfl ?_ ?_ (h.registered loop other hmem)
    · intro fd _ _ hfd
      exact hkept fd hfd
    · intro index _ _ hadded
      exact hconnections index (by simp [Client.destroys]) hadded
  · intro other c' hc' callback hmem
    by_cases hsame : client = other
    · subst hsame
      rw [List.getElem?_set_self hlt] at hc'
      cases hc'
      exact ⟨hiteration, channel', hafter, by rw [hfd', hfd]; exact hcurrent⟩
    · rw [List.getElem?_set_ne hsame] at hc'
      exact h.handling other c' hc' callback hmem
  · exact h.leaving
  · simpa [Client.destroys] using h.destroyed
  · simpa [Client.destroys, hops] using h.removed

/-- `handleEvent` of the channel that the loop has come to. -/
theorem Inv.handleEvent (h : Inv s) {loop : T} {channel : ChannelId} {revents : BitVec 32}
    (hiteration : (s.loops loop).eventHanding_ = true)
    (hcurrent : (s.loops loop).currentActiveChannel_ = some channel)
    (hregistered : s.registered loop channel = true)
    (hstep : s.handleEvent revents channel = some s') : Inv s' := by
  cases channel with
  | wakeup =>
      cases hstep
      exact h
  | acceptor server =>
      obtain ⟨r, hr, _⟩ := (Option.any_eq_true _ _).mp hregistered
      apply h.stepServer hr _ _ hstep
      · intro _ _ hindex _
        cases hindex
      · rintro (ha | hremoves)
        · cases ha
        · cases hremoves
  | connector client sockfd => exact h.dispatchConnector hiteration hcurrent hregistered hstep
  | accepted server index =>
      obtain ⟨r, hr, _⟩ := (Option.any_eq_true _ _).mp hregistered
      apply h.stepServer hr _ _ hstep
      · intro _ _ hindex _
        cases hindex
      · rintro (ha | hremoves)
        · cases ha
        · cases hremoves
  | opened client index =>
      obtain ⟨c, hc, _⟩ := (Option.any_eq_true _ _).mp hregistered
      apply h.stepClient hc _ _ hstep
      · simp
      · intro _
        exact ⟨rfl, by simp⟩

theorem Inv.poll (h : Inv s) {loop : T} {active : List ChannelId}
    (hstep : s.poll loop active = some s') : Inv s' := by
  simp only [Process.poll, Option.ite_none_right_eq_some, Bool.and_eq_true, Bool.not_eq_true',
    decide_eq_true_eq, List.all_eq_true] at hstep
  obtain ⟨⟨⟨⟨⟨hbetween, hcalling⟩, hrests⟩, hnodup⟩, hactive⟩, hresult⟩ := hstep
  cases hresult
  obtain ⟨_, hnone⟩ := (h.loops loop).idle hbetween
  apply h.setLoop
  · refine ⟨fun hcall => ?_, fun hidle => ?_, hnodup, fun channel hcurrent => ?_⟩
    · rw [hcalling] at hcall
      cases hcall
    · cases hidle
    · rw [hnone] at hcurrent
      cases hcurrent
  · exact hactive
  · intro client c hc hloop callback hmem
    rw [work_of_rests hrests hc hloop] at hmem
    cases hmem
  · intro server r hr hloop hleaving
    exact absurd (leaving_of_rests hrests hr hloop) hleaving

theorem Inv.dispatch (h : Inv s) {loop : T} {revents : BitVec 32}
    (hstep : s.next (.dispatch loop revents) = some s') : Inv s' := by
  rw [Process.next] at hstep
  split at hstep
  · cases hstep
  · rename_i channel rest hwaiting
    simp only [Option.ite_none_right_eq_some, Bool.and_eq_true] at hstep
    obtain ⟨⟨hiteration, hrests⟩, hhandle⟩ := hstep
    have hsound := h.loops loop
    have hchannel : s.registered loop channel = true :=
      h.registered loop channel (by rw [hwaiting]; exact List.mem_cons_self)
    have hnodup := hsound.nodup
    rw [hwaiting, List.nodup_cons] at hnodup
    have hmoved : Inv (s.setLoop loop { s.loops loop with
        currentActiveChannel_ := some channel, waiting := rest }) := by
      apply h.setLoop
      · refine ⟨hsound.phase, fun hidle => ?_, hnodup.2, fun other hcurrent => ?_⟩
        · rw [hiteration] at hidle
          cases hidle
        · cases hcurrent
          exact hnodup.1
      · intro other hmem
        apply h.registered loop other
        rw [hwaiting]
        exact List.mem_cons_of_mem _ hmem
      · intro client c hc hloop callback hmem
        rw [work_of_rests hrests hc hloop] at hmem
        cases hmem
      · intro server r hr hloop hleaving
        exact absurd (leaving_of_rests hrests hr hloop) hleaving
    have hstill : ((s.setLoop loop { s.loops loop with
        currentActiveChannel_ := some channel, waiting := rest }).loops loop).eventHanding_ =
          true := by
      simpa [Process.setLoop] using hiteration
    exact hmoved.handleEvent hstill (by simp [Process.setLoop]) hchannel hhandle

theorem Inv.next (h : Inv s) {a : Action T} (hguard : outsideCallbacks s a = true)
    (hstep : s.next a = some s') : Inv s' := by
  cases a with
  | client client a =>
      obtain ⟨c, hc, hallowed⟩ := Option.bind_eq_some_iff.mp hstep
      rw [Option.ite_none_right_eq_some] at hallowed
      exact h.client hc hallowed.1 hallowed.2
  | server server a =>
      obtain ⟨r, hr, hallowed⟩ := Option.bind_eq_some_iff.mp hstep
      rw [Option.ite_none_right_eq_some] at hallowed
      exact h.server hr hallowed.1 hguard hallowed.2
  | poll loop active => exact h.poll hstep
  | dispatch loop revents => exact h.dispatch hstep
  | dopendingFunctors loop =>
      simp only [Process.next, Option.ite_none_right_eq_some, Bool.and_eq_true,
        List.isEmpty_iff] at hstep
      obtain ⟨⟨⟨_, hwaiting⟩, hrests⟩, hresult⟩ := hstep
      cases hresult
      apply h.setLoop
      · exact ⟨fun _ => rfl, fun _ => ⟨hwaiting, rfl⟩, by simp [hwaiting], by simp⟩
      · simp [hwaiting]
      · intro client c hc hloop callback hmem
        rw [work_of_rests hrests hc hloop] at hmem
        cases hmem
      · intro _ _ _ _ _
        rfl
  | swapped loop | leave loop =>
      simp only [Process.next, Option.ite_none_right_eq_some] at hstep
      cases hstep.2
      have hsound := h.loops loop
      apply h.setLoop
      · exact ⟨fun hcalling => hsound.phase (by simp_all), hsound.idle, hsound.nodup,
          hsound.current⟩
      · exact h.registered loop
      · rintro client c hc rfl callback hmem
        exact ⟨(h.handling client c hc callback hmem).1, rfl⟩
      · rintro server r hr rfl hmore
        exact h.leaving server r hr hmore

end Process

end MuduoRpc
