import PteSysbench.CircularLists
import PteSysbench.LockDiscipline
import PteSysbench.OptionValues

/-!
`mysql_drv_init` and `mysql_drv_connect` of drv_mysql.c, as far as they choose where a
connection goes. The cursors are nodes of circular lists; `pos_mutex` is held from the
first look at them to the last. Threads connect in any order, as often as they like.
-/

namespace PteSysbench.MysqlConnect

open ActionSystem CircularLists LockDiscipline OptionRegistry OptionValues

/-! Option lists as `add_value` builds them. -/
section Lists

/-- The head is node 0, and the value with index `i` is in node `i + 1`. -/
def valueLinks (count : Nat) : Links Nat :=
  (List.range count).foldl (fun links i => links.addTail (i + 1) 0)
    (Links.init ⟨fun _ => 0, fun _ => 0⟩ 0)

/-- `sb_list_t` of an option. -/
structure ValueList where
  values : List Text

def ValueList.next (list : ValueList) (pos : Nat) : Nat := (valueLinks list.values.length).next pos

def ValueList.isEmpty (list : ValueList) : Bool := (valueLinks list.values.length).isEmpty 0

/-- `SB_LIST_ENTRY(pos, value_t, listitem)->data`; there is none around the head. -/
def ValueList.data (list : ValueList) : Nat → Option Text
  | 0 => none
  | i + 1 => list.values[i]?

theorem value_links_linked (count : Nat) :
    Linked (valueLinks count) 0 ((List.range count).map (· + 1)) := by
  induction count with
  | zero => exact init_linked _ 0
  | succ count ih =>
      have built : valueLinks (count + 1) = (valueLinks count).addTail (count + 1) 0 := by
        rw [valueLinks, List.range_succ, List.foldl_append]
        rfl
      rw [built, List.range_succ, List.map_append]
      apply add_tail_linked ih
      simp

theorem value_node (count i : Nat) :
    nodeAt 0 ((List.range count).map (· + 1)) i = if i ≤ count then i else 0 := by
  cases i with
  | zero => rfl
  | succ i =>
      by_cases inside : i + 1 ≤ count
      · have length : i < ((List.range count).map (· + 1)).length := by
          rw [List.length_map, List.length_range]
          exact inside
        rw [if_pos inside, nodeAt, List.getD_cons_succ, List.getD_eq_getElem _ _ length,
          List.getElem_map, List.getElem_range]
      · rw [if_neg inside, node_at_past (by simp; omega)]

/-- The node behind another one; behind the last value is the head. -/
theorem value_next (list : ValueList) (pos : Nat) (inside : pos ≤ list.values.length) :
    list.next pos = if pos < list.values.length then pos + 1 else 0 := by
  have linked := (value_links_linked list.values.length).next pos (by simpa using inside)
  rw [value_node, value_node, if_pos inside] at linked
  exact linked

theorem value_empty_iff (list : ValueList) : list.isEmpty = true ↔ list.values = [] := by
  rw [ValueList.isEmpty, empty_iff (value_links_linked _)]
  simp
end Lists

/-! The driver. -/
section Driver

structure Args where
  hosts : ValueList
  ports : ValueList
  sockets : ValueList
  dryRun : Bool

/-- What `mysql_drv_real_connect` is given; `calloc` leaves a port of 0. -/
structure Target where
  host : Text
  port : Nat
  socket : Option Text
  deriving DecidableEq

/-- The cursors. -/
structure Shared where
  hostsPos : Nat
  portsPos : Nat
  socketsPos : Nat

def mysqlDrvInit (args : Args) : Except String Shared :=
  if args.hosts.isEmpty then .error "No MySQL hosts specified, aborting"
  else if args.ports.isEmpty then .error "No MySQL ports specified, aborting"
  else .ok { hostsPos := args.hosts.next 0, portsPos := args.ports.next 0, socketsPos := 0 }

/-- `atoi`, the result stored in an `unsigned int`. -/
def atoi (s : Text) : Nat := ((strtol s).1 % 2 ^ 32).toNat

/-- Where a thread is in `mysql_drv_connect`. -/
inductive Place where
  | outside (returned : Option Nat)
  | lock
  | checkSockets
  | readHost
  | readPort (host : Text)
  | advancePorts (target : Target)
  | comparePorts (target : Target)
  | advanceHosts (target : Target)
  | compareHosts (target : Target)
  | skipHosts (target : Target)
  | skipPorts (target : Target)
  | advanceSockets
  | compareSockets
  | skipSockets
  | readSocket
  | unlock (target : Target)
  | connect (target : Target)
  /-- The head of a list was read as a value. -/
  | headRead

/-- Whether `calloc` and `malloc` gave memory, and `mysql_real_connect` a connection. -/
structure Input where
  allocated : Bool
  connected : Bool

def mysqlDrvConnect (args : Args) (input : Input) (shared : Shared) :
    Place → Option (Instruction Place Shared)
  | .outside _ =>
      if args.dryRun then some (.read (.outside (some 0)))
      else if input.allocated then some (.read .lock)
      else some (.read (.outside (some 1)))
  | .lock => some (.lock .checkSockets)
  | .checkSockets => some (.read (if args.sockets.isEmpty then .readHost else .advanceSockets))
  -- hosts and ports: the next one is found after use
  | .readHost =>
      match args.hosts.data shared.hostsPos with
      | none => some (.read .headRead)
      | some host => some (.read (.readPort host))
  | .readPort host =>
      match args.ports.data shared.portsPos with
      | none => some (.read .headRead)
      | some port => some (.read (.advancePorts ⟨host, atoi port, none⟩))
  | .advancePorts target =>
      some (.update (.comparePorts target) { shared with
        portsPos := args.ports.next shared.portsPos })
  | .comparePorts target =>
      some (.read (if shared.portsPos = 0 then .advanceHosts target else .unlock target))
  | .advanceHosts target =>
      some (.update (.compareHosts target) { shared with
        hostsPos := args.hosts.next shared.hostsPos })
  | .compareHosts target =>
      some (.read (if shared.hostsPos = 0 then .skipHosts target else .skipPorts target))
  | .skipHosts target =>
      some (.update (.skipPorts target) { shared with
        hostsPos := args.hosts.next shared.hostsPos })
  | .skipPorts target =>
      some (.update (.unlock target) { shared with
        portsPos := args.ports.next shared.portsPos })
  -- sockets: the next one is found before use
  | .advanceSockets =>
      some (.update .compareSockets { shared with
        socketsPos := args.sockets.next shared.socketsPos })
  | .compareSockets =>
      some (.read (if shared.socketsPos = 0 then .skipSockets else .readSocket))
  | .skipSockets =>
      some (.update .readSocket { shared with
        socketsPos := args.sockets.next shared.socketsPos })
  | .readSocket =>
      match args.sockets.data shared.socketsPos with
      | none => some (.read .headRead)
      | some socket => some (.read (.unlock ⟨text "localhost", 0, some socket⟩))
  | .unlock target => some (.unlock (.connect target))
  | .connect _ => some (.read (.outside (some (if input.connected then 0 else 1))))
  | .headRead => none

/-- What a call gave to `mysql_real_connect`, and whether it connected. -/
structure Connection where
  call : Nat
  target : Target
  connected : Bool

/-- `connections` is history. A call has the number of its section of `pos_mutex`. -/
structure System (n : Nat) where
  threads : Numbered (Fin n) Place Shared
  connections : List Connection

def start (n : Nat) (shared : Shared) : System n :=
  { threads :=
      { threads := { place := fun _ => .outside none, shared := shared, mutex := none
                     strayUnlock := false, strayUpdate := false }
        sections := 0
        number := fun _ => 0 }
    connections := [] }

def System.place {n : Nat} (s : System n) (w : Fin n) : Place := s.threads.threads.place w

/-- The call to `mysql_real_connect` of a thread's next step. -/
def attempted {n : Nat} (s : System n) (a : Fin n × Input) : List Connection :=
  match s.place a.1 with
  | .connect target => [⟨s.threads.number a.1, target, a.2.connected⟩]
  | _ => []

def step {n : Nat} (args : Args) (s : System n) (a : Fin n × Input) : Option (System n) :=
  (numberedStep (fun _ => mysqlDrvConnect args) s.threads a).map fun t =>
    { threads := t, connections := s.connections ++ attempted s a }

/-- The position `k div P` of the hosts and `k mod P` of the ports, or `k mod S`. -/
def expected (args : Args) (k : Nat) : Option Target :=
  if args.sockets.values = [] then
    match args.hosts.values[k / args.ports.values.length % args.hosts.values.length]?,
        args.ports.values[k % args.ports.values.length]? with
    | some host, some port => some ⟨host, atoi port, none⟩
    | _, _ => none
  else
    args.sockets.values[k % args.sockets.values.length]?.map fun socket =>
      ⟨text "localhost", 0, some socket⟩

/-- Between the lock and the return. -/
def Place.connecting : Place → Bool
  | .outside _ | .lock => false
  | _ => true

/-- Calls are numbered from 0 in the order of the lock. Each is on its way or has connected
to the target of its number, one call for a number, and only a call that has a connection
returns 0; no head is read as a value. -/
structure Spread {n : Nat} (args : Args) (s : System n) : Prop where
  targets : ∀ made ∈ s.connections, expected args made.call = some made.target
  once : (s.connections.map Connection.call).Nodup
  all : ∀ k < s.threads.sections, (∃ made ∈ s.connections, made.call = k) ∨
    ∃ w, (s.place w).connecting = true ∧ s.threads.number w = k
  returned : args.dryRun = false → ∀ w, s.place w = .outside (some 0) →
    ∃ made ∈ s.connections, made.call = s.threads.number w ∧ made.connected = true
  noHead : ∀ w, s.place w ≠ .headRead
end Driver

/-! The cursors under the mutex. -/
section Cursors

theorem mod_next (k n : Nat) (some_ : 0 < n) :
    (k + 1) % n = if k % n + 1 < n then k % n + 1 else 0 := by
  have below := Nat.mod_lt k some_
  have parts : k + 1 = n * (k / n) + (k % n + 1) := by rw [← Nat.add_assoc, Nat.div_add_mod]
  rw [parts, Nat.mul_add_mod]
  split
  · rename_i inside
    exact Nat.mod_eq_of_lt inside
  · rw [show k % n + 1 = n by omega, Nat.mod_self]

theorem div_next (k n : Nat) (some_ : 0 < n) :
    (k + 1) / n = if k % n + 1 < n then k / n else k / n + 1 := by
  have below := Nat.mod_lt k some_
  have parts : k + 1 = n * (k / n) + (k % n + 1) := by rw [← Nat.add_assoc, Nat.div_add_mod]
  rw [parts, Nat.mul_add_div some_]
  split
  · rename_i inside
    rw [Nat.div_eq_of_lt inside, Nat.add_zero]
  · rw [show k % n + 1 = n by omega, Nat.div_self some_]

variable (args : Args)

def portOf (call : Nat) : Nat := call % args.ports.values.length

def hostOf (call : Nat) : Nat := call / args.ports.values.length % args.hosts.values.length

/-- The cursors between two calls, before the call with this number. -/
structure Between (call : Nat) (shared : Shared) : Prop where
  ports : args.sockets.values = [] → shared.portsPos = portOf args call + 1
  hosts : args.sockets.values = [] → shared.hostsPos = hostOf args call + 1
  reach : shared.socketsPos ≤ args.sockets.values.length
  sockets : args.sockets.values ≠ [] → shared.socketsPos % args.sockets.values.length =
    call % args.sockets.values.length

/-- A call without sockets has its target; the cursors are on their way to the next. -/
structure Moving (call : Nat) (shared : Shared) (target : Target) (ports hosts : Nat) : Prop where
  noSockets : args.sockets.values = []
  idle : shared.socketsPos = 0
  own : expected args call = some target
  ports : shared.portsPos = ports
  hosts : shared.hostsPos = hosts

/-- What is known at each place of the call with this number. -/
def Known (call : Nat) : Place → Shared → Prop
  | .outside _, _ | .lock, _ => True
  | .checkSockets, shared => Between args call shared
  | .readHost, shared => args.sockets.values = [] ∧ Between args call shared
  | .readPort host, shared =>
      args.sockets.values = [] ∧ Between args call shared ∧
        args.hosts.values[hostOf args call]? = some host
  | .advancePorts target, shared =>
      Moving args call shared target (portOf args call + 1) (hostOf args call + 1)
  | .comparePorts target, shared =>
      Moving args call shared target
        (if portOf args call + 1 < args.ports.values.length then portOf args call + 2 else 0)
        (hostOf args call + 1)
  | .advanceHosts target, shared =>
      args.ports.values.length ≤ portOf args call + 1 ∧
        Moving args call shared target 0 (hostOf args call + 1)
  | .compareHosts target, shared =>
      args.ports.values.length ≤ portOf args call + 1 ∧ Moving args call shared target 0
        (if hostOf args call + 1 < args.hosts.values.length then hostOf args call + 2 else 0)
  | .skipHosts target, shared =>
      args.ports.values.length ≤ portOf args call + 1 ∧
        args.hosts.values.length ≤ hostOf args call + 1 ∧ Moving args call shared target 0 0
  | .skipPorts target, shared =>
      args.ports.values.length ≤ portOf args call + 1 ∧
        Moving args call shared target 0 (hostOf args (call + 1) + 1)
  | .advanceSockets, shared => args.sockets.values ≠ [] ∧ Between args call shared
  | .compareSockets, shared =>
      args.sockets.values ≠ [] ∧
        (shared.socketsPos = call % args.sockets.values.length + 1 ∨
          shared.socketsPos = 0 ∧ call % args.sockets.values.length = 0)
  | .skipSockets, shared =>
      args.sockets.values ≠ [] ∧ shared.socketsPos = 0 ∧ call % args.sockets.values.length = 0
  | .readSocket, shared =>
      args.sockets.values ≠ [] ∧ shared.socketsPos = call % args.sockets.values.length + 1
  | .unlock target, shared =>
      Between args (call + 1) shared ∧ expected args call = some target
  | .connect target, _ => expected args call = some target
  | .headRead, _ => False

def holds : Place → Bool
  | .outside _ | .lock | .connect _ => false
  | _ => true

variable {args} {shared : Shared} {call : Nat} {target : Target} {ports hosts : Nat}

theorem length_pos {list : ValueList} (some_ : list.values ≠ []) : 0 < list.values.length :=
  List.length_pos_iff.mpr some_

theorem port_of_lt (args : Args) (some_ : args.ports.values ≠ []) (call : Nat) :
    portOf args call < args.ports.values.length := Nat.mod_lt _ (length_pos some_)

theorem host_of_lt (args : Args) (some_ : args.hosts.values ≠ []) (call : Nat) :
    hostOf args call < args.hosts.values.length := Nat.mod_lt _ (length_pos some_)

/-- The next port, or the first one with the next host. -/
theorem port_of_next (args : Args) (some_ : args.ports.values ≠ []) (call : Nat) :
    portOf args (call + 1) =
      if portOf args call + 1 < args.ports.values.length then portOf args call + 1 else 0 :=
  mod_next call _ (length_pos some_)

theorem host_of_same (args : Args) (somePorts : args.ports.values ≠ []) (call : Nat)
    (more : portOf args call + 1 < args.ports.values.length) :
    hostOf args (call + 1) = hostOf args call := by
  rw [hostOf, div_next call _ (length_pos somePorts)]
  exact congrArg (· % args.hosts.values.length) (if_pos more)

theorem host_of_next (args : Args) (someHosts : args.hosts.values ≠ [])
    (somePorts : args.ports.values ≠ []) (call : Nat)
    (last : args.ports.values.length ≤ portOf args call + 1) :
    hostOf args (call + 1) =
      if hostOf args call + 1 < args.hosts.values.length then hostOf args call + 1 else 0 := by
  have moved : (call + 1) / args.ports.values.length = call / args.ports.values.length + 1 := by
    rw [div_next call _ (length_pos somePorts)]
    exact if_neg (Nat.not_lt.mpr last)
  rw [hostOf, moved]
  exact mod_next _ _ (length_pos someHosts)

theorem host_at (noSockets : args.sockets.values = []) (some_ : args.hosts.values ≠ [])
    (between : Between args call shared) : args.hosts.data shared.hostsPos =
      some (args.hosts.values.get ⟨hostOf args call, Nat.mod_lt _ (length_pos some_)⟩) := by
  rw [between.hosts noSockets]
  exact List.getElem?_eq_getElem _

theorem port_at (noSockets : args.sockets.values = []) (some_ : args.ports.values ≠ [])
    (between : Between args call shared) : args.ports.data shared.portsPos =
      some (args.ports.values.get ⟨portOf args call, Nat.mod_lt _ (length_pos some_)⟩) := by
  rw [between.ports noSockets]
  exact List.getElem?_eq_getElem _

/-- The cursors are in order again behind a call without sockets. -/
theorem moving_between {hosts ports : Nat} (moving : Moving args call shared target ports hosts)
    (nextPort : ports = portOf args (call + 1) + 1)
    (nextHost : hosts = hostOf args (call + 1) + 1) :
    Between args (call + 1) shared ∧ expected args call = some target := by
  refine ⟨⟨fun _ => ?_, fun _ => ?_, ?_, fun some_ => absurd moving.noSockets some_⟩,
    moving.own⟩
  · rw [moving.ports, nextPort]
  · rw [moving.hosts, nextHost]
  · rw [moving.idle]
    exact Nat.zero_le _

theorem moving_ports {hosts ports : Nat} (next : Nat)
    (moving : Moving args call shared target ports hosts) :
    Moving args call { shared with portsPos := next } target next hosts :=
  { moving with ports := rfl }

theorem moving_hosts {hosts ports : Nat} (next : Nat)
    (moving : Moving args call shared target ports hosts) :
    Moving args call { shared with hostsPos := next } target ports next :=
  { moving with hosts := rfl }
end Cursors

/-! The code, place by place. -/
section Places
variable {args : Args} {call : Nat} {shared : Shared}

/-- What is known outside the mutex is not about the cursors, so it lasts. -/
theorem known_outlasts (after : Shared) (number : Nat) (other : Place)
    (free : holds other = false) (known : Known args number other shared) :
    Known args number other after := by
  cases other with
  | outside returned => trivial
  | lock => trivial
  | connect target => exact known
  | _ => cases free

/-- What a thread does at a place keeps the order of the sections. -/
def Respected (args : Args) (place : Place) : Prop :=
  ∀ input shared call instruction, Known args call place shared →
    mysqlDrvConnect args input shared place = some instruction →
      instruction.Respects holds (Between args) (Known args) call place shared

theorem read_host_respected (someHosts : args.hosts.values ≠ []) :
    Respected args .readHost := by
  intro input shared call instruction known asked
  obtain ⟨noSockets, between⟩ := known
  simp only [mysqlDrvConnect, host_at noSockets someHosts between] at asked
  cases asked
  exact ⟨rfl, noSockets, between, List.getElem?_eq_getElem _⟩

theorem read_port_respected (somePorts : args.ports.values ≠ []) (host : Text) :
    Respected args (.readPort host) := by
  intro input shared call instruction known asked
  obtain ⟨noSockets, between, here⟩ := known
  simp only [mysqlDrvConnect, port_at noSockets somePorts between] at asked
  cases asked
  refine ⟨rfl, noSockets, ?_, ?_, between.ports noSockets, between.hosts noSockets⟩
  · simpa [noSockets] using between.reach
  · have port := List.getElem?_eq_getElem (port_of_lt args somePorts call)
    rw [expected, if_pos noSockets]
    rw [hostOf] at here
    simp only [portOf] at port
    simp only [here, port]
    rfl

theorem advance_ports_respected (somePorts : args.ports.values ≠ []) (target : Target) :
    Respected args (.advancePorts target) := by
  intro input shared call instruction known asked
  cases asked
  refine ⟨rfl, rfl, ?_, known_outlasts _⟩
  have cursor : args.ports.next shared.portsPos =
      if portOf args call + 1 < args.ports.values.length then portOf args call + 2 else 0 := by
    rw [known.ports]
    exact value_next _ _ (port_of_lt args somePorts call)
  rw [cursor]
  exact moving_ports _ known

theorem compare_ports_respected (somePorts : args.ports.values ≠ []) (target : Target) :
    Respected args (.comparePorts target) := by
  intro input shared call instruction known asked
  cases asked
  refine ⟨?_, ?_⟩
  · split <;> rfl
  -- the cursor is at the head exactly behind the last port
  · have cursor := known.ports
    split
    · rename_i past
      rw [past] at cursor
      have last : args.ports.values.length ≤ portOf args call + 1 := by
        by_contra more
        rw [if_pos (by omega)] at cursor
        cases cursor
      rw [Known, if_neg (by omega)] at known
      exact ⟨last, known⟩
    · rename_i here
      have more : portOf args call + 1 < args.ports.values.length := by
        by_contra last
        rw [if_neg last] at cursor
        exact here cursor
      rw [Known, if_pos more] at known
      apply moving_between known
      · rw [port_of_next args somePorts call, if_pos more]
      · rw [host_of_same args somePorts call more]

theorem advance_hosts_respected (someHosts : args.hosts.values ≠ []) (target : Target) :
    Respected args (.advanceHosts target) := by
  intro input shared call instruction known asked
  cases asked
  obtain ⟨last, moving⟩ := known
  refine ⟨rfl, rfl, ⟨last, ?_⟩, known_outlasts _⟩
  have cursor : args.hosts.next shared.hostsPos =
      if hostOf args call + 1 < args.hosts.values.length then hostOf args call + 2 else 0 := by
    rw [moving.hosts]
    exact value_next _ _ (host_of_lt args someHosts call)
  rw [cursor]
  exact moving_hosts _ moving

theorem compare_hosts_respected (someHosts : args.hosts.values ≠ [])
    (somePorts : args.ports.values ≠ []) (target : Target) :
    Respected args (.compareHosts target) := by
  intro input shared call instruction known asked
  cases asked
  obtain ⟨last, moving⟩ := known
  have cursor := moving.hosts
  refine ⟨?_, ?_⟩
  · split <;> rfl
  · split
    · rename_i past
      rw [past] at cursor
      have lastHost : args.hosts.values.length ≤ hostOf args call + 1 := by
        by_contra more
        rw [if_pos (by omega)] at cursor
        cases cursor
      rw [if_neg (by omega)] at moving
      exact ⟨last, lastHost, moving⟩
    · rename_i here
      have more : hostOf args call + 1 < args.hosts.values.length := by
        by_contra lastHost
        rw [if_neg lastHost] at cursor
        exact here cursor
      rw [if_pos more] at moving
      refine ⟨last, ?_⟩
      rw [host_of_next args someHosts somePorts call last, if_pos more]
      exact moving

theorem skip_hosts_respected (someHosts : args.hosts.values ≠ [])
    (somePorts : args.ports.values ≠ []) (target : Target) :
    Respected args (.skipHosts target) := by
  intro input shared call instruction known asked
  cases asked
  obtain ⟨last, lastHost, moving⟩ := known
  refine ⟨rfl, rfl, ⟨last, ?_⟩, known_outlasts _⟩
  have cursor : args.hosts.next shared.hostsPos = hostOf args (call + 1) + 1 := by
    rw [moving.hosts, value_next _ _ (Nat.zero_le _), if_pos (length_pos someHosts),
      host_of_next args someHosts somePorts call last, if_neg (by omega)]
  rw [cursor]
  exact moving_hosts _ moving

theorem skip_ports_respected (somePorts : args.ports.values ≠ []) (target : Target) :
    Respected args (.skipPorts target) := by
  intro input shared call instruction known asked
  cases asked
  obtain ⟨last, moving⟩ := known
  refine ⟨rfl, rfl, ?_, known_outlasts _⟩
  have cursor : args.ports.next shared.portsPos = portOf args (call + 1) + 1 := by
    rw [moving.ports, value_next _ _ (Nat.zero_le _), if_pos (length_pos somePorts),
      port_of_next args somePorts call, if_neg (by omega)]
  rw [cursor]
  exact moving_between (moving_ports _ moving) rfl rfl

theorem advance_sockets_respected :
    Respected args .advanceSockets := by
  intro input shared call instruction known asked
  cases asked
  obtain ⟨some_, between⟩ := known
  refine ⟨rfl, rfl, ⟨some_, ?_⟩, known_outlasts _⟩
  have same := between.sockets some_
  change args.sockets.next shared.socketsPos = _ ∨ args.sockets.next shared.socketsPos = 0 ∧ _
  rw [value_next _ _ between.reach, ← same]
  rcases Nat.lt_or_eq_of_le between.reach with before | full
  · left
    rw [if_pos before, Nat.mod_eq_of_lt before]
  · right
    rw [if_neg (by omega), full, Nat.mod_self]
    exact ⟨rfl, rfl⟩

theorem compare_sockets_respected :
    Respected args .compareSockets := by
  intro input shared call instruction known asked
  cases asked
  obtain ⟨some_, cursor⟩ := known
  refine ⟨?_, ?_⟩
  -- at the head the next socket is the first one again
  · split <;> rfl
  · split
    · rename_i head
      rcases cursor with here | ⟨_, first⟩
      · rw [head] at here
        cases here
      · exact ⟨some_, head, first⟩
    · rename_i value
      rcases cursor with here | ⟨head, _⟩
      · exact ⟨some_, here⟩
      · exact absurd head value

theorem skip_sockets_respected :
    Respected args .skipSockets := by
  intro input shared call instruction known asked
  cases asked
  obtain ⟨some_, head, first⟩ := known
  refine ⟨rfl, rfl, ⟨some_, ?_⟩, known_outlasts _⟩
  change args.sockets.next shared.socketsPos = _
  rw [head, value_next _ _ (Nat.zero_le _), if_pos (length_pos some_), first]

theorem read_socket_respected :
    Respected args .readSocket := by
  intro input shared call instruction known asked
  obtain ⟨some_, here⟩ := known
  have inside := Nat.mod_lt call (length_pos some_)
  obtain ⟨socket, value⟩ : ∃ socket, args.sockets.values[call % args.sockets.values.length]? =
      some socket := ⟨_, List.getElem?_eq_getElem inside⟩
  have read : args.sockets.data shared.socketsPos = some socket := by
    rw [here]
    exact value
  simp only [mysqlDrvConnect, read] at asked
  cases asked
  refine ⟨rfl, ⟨fun none_ => absurd none_ some_, fun none_ => absurd none_ some_, ?_,
    fun _ => ?_⟩, ?_⟩
  · omega
  · rw [here, Nat.mod_add_mod]
  · rw [expected, if_neg some_, value]
    rfl

theorem connect_sectioned (someHosts : args.hosts.values ≠ [])
    (somePorts : args.ports.values ≠ []) :
    Sectioned (fun (_ : Fin n) => mysqlDrvConnect args) holds (Between args) (Known args) := by
  intro w input shared call place instruction known asked
  cases place with
  | outside returned =>
      simp only [mysqlDrvConnect] at asked
      split at asked
      · cases asked
        exact ⟨rfl, trivial⟩
      · split at asked
        · cases asked
          exact ⟨rfl, trivial⟩
        · cases asked
          exact ⟨rfl, trivial⟩
  | lock =>
      cases asked
      exact ⟨rfl, rfl, fun _ => id⟩
  | checkSockets =>
      cases asked
      split
      · rename_i empty
        exact ⟨rfl, (value_empty_iff _).mp empty, known⟩
      · rename_i some_
        exact ⟨rfl, fun empty => some_ ((value_empty_iff _).mpr empty), known⟩
  | readHost => exact read_host_respected someHosts _ _ _ _ known asked
  | readPort host => exact read_port_respected somePorts host _ _ _ _ known asked
  | advancePorts target => exact advance_ports_respected somePorts target _ _ _ _ known asked
  | comparePorts target => exact compare_ports_respected somePorts target _ _ _ _ known asked
  | advanceHosts target => exact advance_hosts_respected someHosts target _ _ _ _ known asked
  | compareHosts target =>
      exact compare_hosts_respected someHosts somePorts target _ _ _ _ known asked
  | skipHosts target => exact skip_hosts_respected someHosts somePorts target _ _ _ _ known asked
  | skipPorts target => exact skip_ports_respected somePorts target _ _ _ _ known asked
  | advanceSockets => exact advance_sockets_respected _ _ _ _ known asked
  | compareSockets => exact compare_sockets_respected _ _ _ _ known asked
  | skipSockets => exact skip_sockets_respected _ _ _ _ known asked
  | readSocket => exact read_socket_respected _ _ _ _ known asked
  | unlock target =>
      cases asked
      exact ⟨rfl, rfl, known.1, known.2⟩
  | connect target =>
      cases asked
      exact ⟨rfl, trivial⟩
  | headRead => exact absurd known id

/-- Where the next step of a thread is in its call: it takes the lock, ends the call or
stays inside or outside. -/
inductive Turn (args : Args) (input : Input) (place : Place) :
    Instruction Place Shared → Prop where
  | locks (here : place = .lock) : Turn args input place (.lock .checkSockets)
  | connects (target : Target) (here : place = .connect target) :
      Turn args input place (.read (.outside (some (if input.connected then 0 else 1))))
  | inside (instruction : Instruction Place Shared) (unlocked : ∀ next, instruction ≠ .lock next)
      (before : place.connecting = true) (after : instruction.next.connecting = true)
      (silent : ∀ target, place ≠ .connect target) : Turn args input place instruction
  | outside (returned : Option Nat) (here : place = .outside returned)
      (next : Place) (after : next.connecting = false)
      (fails : args.dryRun = false → next ≠ .outside (some 0)) :
      Turn args input place (.read next)

theorem connect_turn (input : Input) (place : Place) (instruction : Instruction Place Shared)
    (asked : mysqlDrvConnect args input shared place = some instruction) :
    Turn args input place instruction := by
  cases place with
  | outside returned =>
      simp only [mysqlDrvConnect] at asked
      split at asked
      · rename_i dry
        cases asked
        exact .outside returned rfl _ rfl fun real => absurd dry (by simp [real])
      · split at asked
        · cases asked
          exact .outside returned rfl _ rfl fun _ => nofun
        · cases asked
          exact .outside returned rfl _ rfl fun _ => by simp
  | lock =>
      cases asked
      exact .locks rfl
  | connect target =>
      cases asked
      exact .connects target rfl
  | checkSockets | comparePorts | compareHosts | compareSockets =>
      cases asked
      refine .inside _ nofun rfl ?_ nofun
      simp only [Instruction.next]
      split <;> rfl
  | readHost | readPort | readSocket =>
      simp only [mysqlDrvConnect] at asked
      split at asked
      · cases asked
        exact .inside _ nofun rfl rfl nofun
      · cases asked
        exact .inside _ nofun rfl rfl nofun
  | advancePorts | advanceHosts | skipHosts | skipPorts | advanceSockets | skipSockets
  | unlock =>
      cases asked
      exact .inside _ nofun rfl rfl nofun
  | headRead => cases asked
end Places

/-! Any number of threads, connecting in any order. -/
section Runs
variable {args : Args} {n : Nat} {shared : Shared} {s t : System n}

/-- The books of the calls: their numbers, their connections and their returns. -/
structure Tracked (args : Args) (s : System n) : Prop where
  targets : ∀ made ∈ s.connections, expected args made.call = some made.target
  once : (s.connections.map Connection.call).Nodup
  numbered : ∀ made ∈ s.connections, made.call < s.threads.sections
  begun : ∀ w, (s.place w).connecting = true → s.threads.number w < s.threads.sections
  fresh : ∀ w, (s.place w).connecting = true →
    ∀ made ∈ s.connections, made.call ≠ s.threads.number w
  apart : ∀ w v, (s.place w).connecting = true → (s.place v).connecting = true →
    s.threads.number w = s.threads.number v → w = v
  all : ∀ k < s.threads.sections, (∃ made ∈ s.connections, made.call = k) ∨
    ∃ w, (s.place w).connecting = true ∧ s.threads.number w = k
  returned : args.dryRun = false → ∀ w, s.place w = .outside (some 0) →
    ∃ made ∈ s.connections, made.call = s.threads.number w ∧ made.connected = true

/-- A step that neither takes the lock nor connects. -/
theorem silent_tracked (tracked : Tracked args s) (after : State (Fin n) Place Shared)
    (same : ∀ v, (after.place v).connecting = (s.place v).connecting)
    (returns : args.dryRun = false → ∀ v, after.place v = .outside (some 0) →
      s.place v = .outside (some 0)) :
    Tracked args { s with threads := { s.threads with threads := after } } := by
  constructor
  case targets => exact tracked.targets
  case once => exact tracked.once
  case numbered => exact tracked.numbered
  case begun => exact fun w going => tracked.begun w ((same w).symm.trans going)
  case fresh => exact fun w going => tracked.fresh w ((same w).symm.trans going)
  case apart =>
    intro w v going goingToo
    exact tracked.apart w v ((same w).symm.trans going) ((same v).symm.trans goingToo)
  case all =>
    intro k below
    rcases tracked.all k below with made | ⟨w, going, here⟩
    · exact Or.inl made
    · exact Or.inr ⟨w, (same w).trans going, here⟩
  case returned => exact fun real v zero => tracked.returned real v (returns real v zero)

/-- The thread that takes the lock has the next number. -/
theorem locked_tracked (tracked : Tracked args s) (w : Fin n) (waited : s.place w = .lock)
    (sections : t.threads.sections = s.threads.sections + 1)
    (number : t.threads.number = Function.update s.threads.number w s.threads.sections)
    (connections : t.connections = s.connections) (own : t.place w = .checkSockets)
    (others : ∀ v, v ≠ w → t.place v = s.place v) : Tracked args t := by
  have mine : t.threads.number w = s.threads.sections := by rw [number, Function.update_self]
  have theirs (v : Fin n) (other : v ≠ w) : t.threads.number v = s.threads.number v := by
    rw [number, Function.update_of_ne other]
  constructor
  case targets => simpa only [connections] using tracked.targets
  case once => simpa only [connections] using tracked.once
  case numbered =>
    rw [connections, sections]
    exact fun made member => Nat.lt_succ_of_lt (tracked.numbered made member)
  case begun =>
    intro v going
    rw [sections]
    by_cases same : v = w
    · rw [same, mine]
      exact Nat.lt_succ_self _
    · rw [others v same] at going
      rw [theirs v same]
      exact Nat.lt_succ_of_lt (tracked.begun v going)
  case fresh =>
    intro v going made member
    rw [connections] at member
    by_cases same : v = w
    · rw [same, mine]
      exact Nat.ne_of_lt (tracked.numbered made member)
    · rw [others v same] at going
      rw [theirs v same]
      exact tracked.fresh v going made member
  case apart =>
    intro v u going goingToo equal
    by_cases same : v = w <;> by_cases sameToo : u = w
    · rw [same, sameToo]
    · rw [others u sameToo] at goingToo
      rw [same, mine, theirs u sameToo] at equal
      exact absurd equal.symm (Nat.ne_of_lt (tracked.begun u goingToo))
    · rw [others v same] at going
      rw [sameToo, mine, theirs v same] at equal
      exact absurd equal (Nat.ne_of_lt (tracked.begun v going))
    · rw [others v same] at going
      rw [others u sameToo] at goingToo
      rw [theirs v same, theirs u sameToo] at equal
      exact tracked.apart v u going goingToo equal
  case all =>
    intro k below
    rw [sections] at below
    rw [connections]
    rcases Nat.lt_succ_iff_lt_or_eq.mp below with before | rfl
    · rcases tracked.all k before with made | ⟨v, going, here⟩
      · exact Or.inl made
      · have other : v ≠ w := by
          rintro rfl
          rw [waited] at going
          cases going
        exact Or.inr ⟨v, by rw [others v other]; exact going, by rw [theirs v other]; exact here⟩
    · exact Or.inr ⟨w, by rw [own]; rfl, mine⟩
  case returned =>
    intro real v zero
    have other : v ≠ w := by
      rintro rfl
      rw [own] at zero
      cases zero
    rw [others v other] at zero
    rw [connections, theirs v other]
    exact tracked.returned real v zero

/-- A call that connects to the target of its number, and returns. -/
theorem connected_tracked (tracked : Tracked args s) (w : Fin n) (target : Target)
    (connected : Bool) (there : s.place w = .connect target)
    (known : expected args (s.threads.number w) = some target)
    (sections : t.threads.sections = s.threads.sections)
    (number : t.threads.number = s.threads.number)
    (connections : t.connections = s.connections ++ [⟨s.threads.number w, target, connected⟩])
    (own : t.place w = .outside (some (if connected then 0 else 1)))
    (others : ∀ v, v ≠ w → t.place v = s.place v) : Tracked args t := by
  have going : (s.place w).connecting = true := by
    rw [there]
    rfl
  have still (v : Fin n) (later : (t.place v).connecting = true) :
      v ≠ w ∧ (s.place v).connecting = true := by
    have other : v ≠ w := by
      rintro rfl
      rw [own] at later
      cases later
    rw [others v other] at later
    exact ⟨other, later⟩
  constructor
  case targets =>
    rw [connections]
    exact List.forall_mem_append.mpr ⟨tracked.targets, by simpa using known⟩
  case once =>
    rw [connections, List.map_append, List.nodup_append]
    refine ⟨tracked.once, List.nodup_singleton _, ?_⟩
    intro call member other last
    obtain ⟨made, listed, rfl⟩ := List.mem_map.mp member
    rw [List.mem_singleton.mp last]
    exact tracked.fresh w going made listed
  case numbered =>
    rw [connections, sections]
    exact List.forall_mem_append.mpr ⟨tracked.numbered, by simpa using tracked.begun w going⟩
  case begun =>
    intro v later
    rw [number, sections]
    exact tracked.begun v (still v later).2
  case fresh =>
    intro v later
    obtain ⟨other, before⟩ := still v later
    rw [connections, number]
    refine List.forall_mem_append.mpr ⟨tracked.fresh v before, ?_⟩
    intro made last
    rw [List.mem_singleton.mp last]
    exact fun equal => other (tracked.apart w v going before equal).symm
  case apart =>
    rw [number]
    exact fun v u later laterToo => tracked.apart v u (still v later).2 (still u laterToo).2
  case all =>
    intro k below
    rw [sections] at below
    rw [connections, number]
    rcases tracked.all k below with ⟨made, member, here⟩ | ⟨v, before, here⟩
    · exact Or.inl ⟨made, List.mem_append_left _ member, here⟩
    · by_cases same : v = w
      · subst same
        exact Or.inl ⟨_, List.mem_append_right _ List.mem_cons_self, here⟩
      · exact Or.inr ⟨v, by rw [others v same]; exact before, here⟩
  case returned =>
    intro real v zero
    rw [connections, number]
    by_cases same : v = w
    · subst same
      rw [own] at zero
      cases connected with
      | true => exact ⟨_, List.mem_append_right _ List.mem_cons_self, rfl, rfl⟩
      | false => cases zero
    · rw [others v same] at zero
      obtain ⟨made, member, here, done⟩ := tracked.returned real v zero
      exact ⟨made, List.mem_append_left _ member, here, done⟩

theorem attempted_silent (s : System n) (a : Fin n × Input)
    (silent : ∀ target, s.place a.1 ≠ .connect target) : attempted s a = [] := by
  rw [attempted]
  split
  · rename_i target here
    exact absurd here (silent target)
  · rfl

theorem step_tracked (a : Fin n × Input)
    (order : InOrder holds (Between args) (Known args) s.threads) (tracked : Tracked args s)
    (taken : step args s a = some t) : Tracked args t := by
  obtain ⟨threads, moved, rfl⟩ := Option.map_eq_some_iff.mp taken
  obtain ⟨instruction, asked, recorded⟩ := Option.bind_eq_some_iff.mp moved
  obtain ⟨after, performed, rfl⟩ := Option.map_eq_some_iff.mp recorded
  have placed := perform_place _ _ _ _ performed
  have own : after.place a.1 = instruction.next := by rw [placed, Function.update_self]
  have others (v : Fin n) (other : v ≠ a.1) : after.place v = s.place v := by
    rw [placed, Function.update_of_ne other]
    rfl
  cases connect_turn _ _ _ asked with
  | locks here =>
      have silent := attempted_silent s a fun target => by
        change s.threads.threads.place a.1 ≠ _
        rw [here]
        nofun
      exact locked_tracked tracked a.1 here rfl rfl (by rw [silent, List.append_nil]) own others
  | connects target here =>
      have known := order.known a.1
      rw [here] at known
      have made : attempted s a = [⟨s.threads.number a.1, target, a.2.connected⟩] := by
        simp only [attempted, System.place, here]
      exact connected_tracked tracked a.1 target a.2.connected here known rfl rfl
        (by rw [made]) own others
  | inside _ unlocked before later silent =>
      have kept : s.threads.record a.1 instruction after = { s.threads with threads := after } := by
        cases instruction with
        | lock next => exact absurd rfl (unlocked next)
        | unlock | read | update => rfl
      rw [kept, attempted_silent s a silent, List.append_nil]
      apply silent_tracked tracked after
      · intro v
        by_cases same : v = a.1
        · subst same
          exact (congrArg Place.connecting own).trans (later.trans before.symm)
        · exact congrArg Place.connecting (others v same)
      · intro real v zero
        by_cases same : v = a.1
        · subst same
          rw [← own, show after.place a.1 = .outside (some 0) from zero] at later
          cases later
        · exact (others v same).symm.trans zero
  | outside returned here next later fails =>
      have silent := attempted_silent s a fun target => by
        change s.threads.threads.place a.1 ≠ _
        rw [here]
        nofun
      rw [silent, List.append_nil]
      apply silent_tracked tracked after
      · intro v
        by_cases same : v = a.1
        · subst same
          have before : (s.place a.1).connecting = false := congrArg Place.connecting here
          exact (congrArg Place.connecting own).trans (later.trans before.symm)
        · exact congrArg Place.connecting (others v same)
      · intro real v zero
        by_cases same : v = a.1
        · subst same
          exact absurd (own.symm.trans zero) (fails real)
        · exact (others v same).symm.trans zero

theorem init_some (initialized : mysqlDrvInit args = .ok shared) :
    args.hosts.values ≠ [] ∧ args.ports.values ≠ [] ∧
      shared = { hostsPos := 1, portsPos := 1, socketsPos := 0 } := by
  rw [mysqlDrvInit] at initialized
  split at initialized
  · cases initialized
  · rename_i someHosts
    rw [value_empty_iff] at someHosts
    split at initialized
    · cases initialized
    · rename_i somePorts
      rw [value_empty_iff] at somePorts
      cases initialized
      rw [value_next _ _ (Nat.zero_le _), if_pos (length_pos someHosts),
        value_next _ _ (Nat.zero_le _), if_pos (length_pos somePorts)]
      exact ⟨someHosts, somePorts, rfl⟩

theorem init_between (initialized : mysqlDrvInit args = .ok shared) : Between args 0 shared := by
  obtain ⟨someHosts, somePorts, rfl⟩ := init_some initialized
  constructor
  · intro _
    exact congrArg (· + 1) (Nat.zero_mod _).symm
  · intro _
    rw [hostOf, Nat.zero_div, Nat.zero_mod]
  · exact Nat.zero_le _
  · intro _
    rfl

theorem start_in_order (initialized : mysqlDrvInit args = .ok shared) :
    InOrder holds (Between args) (Known args) (start n shared).threads := by
  constructor
  · intro w
    constructor
    · intro held
      cases held
    · intro owned
      cases owned
  · intro w
    trivial
  · intro _
    exact init_between initialized
  · intro w owned
    cases owned

theorem start_tracked (args : Args) (shared : Shared) : Tracked args (start n shared) := by
  constructor
  case once => exact List.nodup_nil
  case returned =>
    intro _ w zero
    cases zero
  case begun | fresh =>
    intro w going
    cases going
  case apart =>
    intro w v going
    cases going
  all_goals nofun

theorem known_spread (order : InOrder holds (Between args) (Known args) s.threads)
    (tracked : Tracked args s) : Spread args s := by
  refine ⟨tracked.targets, tracked.once, tracked.all, tracked.returned, fun w read => ?_⟩
  have known := order.known w
  rw [show s.threads.threads.place w = .headRead from read] at known
  exact known

def twoHosts : Args :=
  { hosts := ⟨[text "db1", text "db2"]⟩, ports := ⟨[text "3306", text "3307", text "3308"]⟩
    sockets := ⟨[]⟩, dryRun := false }

example : (List.range 7).map (expected twoHosts) =
    [(text "db1", 3306), (text "db1", 3307), (text "db1", 3308), (text "db2", 3306),
      (text "db2", 3307), (text "db2", 3308), (text "db1", 3306)].map
        fun (host, port) => some ⟨host, port, none⟩ := by decide
end Runs
end PteSysbench.MysqlConnect
