import MonitorMerlin.Library.ByteImage

/-! # Choosing between two connections -/

namespace MonitorMerlin

open ByteImage

inductive ByteOrder where
  | little
  | big
  deriving DecidableEq, Repr

def ByteOrder.value : ByteOrder → Bytes → Nat
  | .little, bytes => leValue bytes
  | .big, bytes => leValue bytes.reverse

theorem ByteOrder.eq_of_value_eq (order : ByteOrder) {first second : Bytes}
    (sameLength : first.length = second.length)
    (sameValue : order.value first = order.value second) : first = second := by
  cases order with
  | little => exact eq_of_leValue_eq sameLength sameValue
  | big =>
    apply List.reverse_injective
    apply eq_of_leValue_eq _ sameValue
    rw [List.length_reverse, List.length_reverse, sameLength]

structure SockaddrIn where
  sinAddr : Bytes
  sinPort : Bytes
  length_sinAddr : sinAddr.length = 4
  length_sinPort : sinPort.length = 2
  deriving DecidableEq, Repr

structure SocketNames where
  getsockname : Int → Option SockaddrIn
  getpeername : Int → Option SockaddrIn

/-- What to do with two sockets. -/
inductive Verdict where
  | use (sock : Int)
  | killBoth
  deriving DecidableEq, Repr

def Verdict.returned : Verdict → Int
  | .use sock => sock
  | .killBoth => -1

def negotiateNames (order : ByteOrder) (con lis : Int) (lissain consain : SockaddrIn) : Verdict :=
  if order.value consain.sinAddr < order.value lissain.sinAddr then
    .use con
  else if order.value lissain.sinAddr < order.value consain.sinAddr then
    .use lis
  else if order.value consain.sinPort < order.value lissain.sinPort then
    .use con
  else if order.value lissain.sinPort < order.value consain.sinPort then
    .use lis
  else
    .killBoth

/-- `net_negotiate_socket`. -/
def netNegotiateSocket (order : ByteOrder) (names : SocketNames) (con lis : Int) : Verdict :=
  if con < 0 then
    .use lis
  else if lis < 0 then
    .use con
  else
    match names.getsockname lis with
    | none => .use con
    | some lissain =>
      match names.getpeername con with
      | none => .use lis
      | some consain => negotiateNames order con lis lissain consain

def SockaddrIn.Below (order : ByteOrder) (first second : SockaddrIn) : Prop :=
  order.value first.sinAddr < order.value second.sinAddr ∨
    (order.value first.sinAddr = order.value second.sinAddr ∧
      order.value first.sinPort < order.value second.sinPort)

theorem SockaddrIn.below_or_below (order : ByteOrder) {first second : SockaddrIn}
    (distinct : first ≠ second) : first.Below order second ∨ second.Below order first := by
  rcases Nat.lt_trichotomy (order.value first.sinAddr) (order.value second.sinAddr) with
    lower | sameAddr | higher
  · exact .inl (.inl lower)
  · rcases Nat.lt_trichotomy (order.value first.sinPort) (order.value second.sinPort) with
      lower | samePort | higher
    · exact .inl (.inr ⟨sameAddr, lower⟩)
    · have addrs : first.sinAddr = second.sinAddr := by
        apply order.eq_of_value_eq _ sameAddr
        rw [first.length_sinAddr, second.length_sinAddr]
      have ports : first.sinPort = second.sinPort := by
        apply order.eq_of_value_eq _ samePort
        rw [first.length_sinPort, second.length_sinPort]
      cases first
      cases second
      simp_all
    · exact .inr (.inr ⟨sameAddr.symm, higher⟩)
  · exact .inr (.inl higher)

variable {order : ByteOrder} {con lis : Int} {lissain consain : SockaddrIn}

theorem negotiateNames_of_con_below (below : consain.Below order lissain) :
    negotiateNames order con lis lissain consain = .use con := by
  unfold negotiateNames
  rcases below with lower | ⟨sameAddr, lower⟩
  · rw [if_pos lower]
  · rw [if_neg (by omega), if_neg (by omega), if_pos lower]

theorem negotiateNames_of_lis_below (below : lissain.Below order consain) :
    negotiateNames order con lis lissain consain = .use lis := by
  unfold negotiateNames
  rcases below with lower | ⟨sameAddr, lower⟩
  · rw [if_neg (by omega), if_pos lower]
  · rw [if_neg (by omega), if_neg (by omega), if_neg (by omega), if_pos lower]

structure TcpConnection where
  origin : SockaddrIn
  target : SockaddrIn
  deriving DecidableEq, Repr

inductive Side where
  | connecting
  | accepted
  deriving DecidableEq, Repr

def Side.other : Side → Side
  | .connecting => .accepted
  | .accepted => .connecting

structure SocketEnd where
  connection : TcpConnection
  side : Side
  deriving DecidableEq, Repr

def SocketEnd.sockname (socketEnd : SocketEnd) : SockaddrIn :=
  match socketEnd.side with
  | .connecting => socketEnd.connection.origin
  | .accepted => socketEnd.connection.target

def SocketEnd.peername (socketEnd : SocketEnd) : SockaddrIn :=
  match socketEnd.side with
  | .connecting => socketEnd.connection.target
  | .accepted => socketEnd.connection.origin

structure NetNode where
  listening : SockaddrIn
  sockets : Int → Option SocketEnd

def NetNode.names (node : NetNode) : SocketNames :=
  ⟨fun sock => (node.sockets sock).map SocketEnd.sockname,
    fun sock => (node.sockets sock).map SocketEnd.peername⟩

structure NetNode.Holds
    (node : NetNode) (outbound inbound : TcpConnection) (con lis : Int) : Prop where
  conValid : 0 ≤ con
  lisValid : 0 ≤ lis
  connected : node.sockets con = some ⟨outbound, .connecting⟩
  accepted : node.sockets lis = some ⟨inbound, .accepted⟩
  listens : inbound.target = node.listening

theorem NetNode.Holds.negotiates {node : NetNode} {outbound inbound : TcpConnection}
    (holds : node.Holds outbound inbound con lis) :
    netNegotiateSocket order node.names con lis =
      negotiateNames order con lis node.listening outbound.target := by
  have sockname : node.names.getsockname lis = some node.listening := by
    simp [NetNode.names, holds.accepted, SocketEnd.sockname, holds.listens]
  have peername : node.names.getpeername con = some outbound.target := by
    simp [NetNode.names, holds.connected, SocketEnd.peername]
  unfold netNegotiateSocket
  rw [if_neg (Int.not_lt.mpr holds.conValid), if_neg (Int.not_lt.mpr holds.lisValid),
    sockname, peername]

/-- Two nodes that have connected to each other choose the two ends of one
connection, the one to the lower of their listening names. -/
theorem netNegotiateSocket_same_connection
    (order : ByteOrder) (first second : NetNode) (outbound inbound : TcpConnection)
    (firstCon firstLis secondCon secondLis : Int)
    (distinct : first.listening ≠ second.listening)
    (firstHolds : first.Holds outbound inbound firstCon firstLis)
    (secondHolds : second.Holds inbound outbound secondCon secondLis) :
    ∃ connection side,
      first.sockets (netNegotiateSocket order first.names firstCon firstLis).returned =
        some ⟨connection, side⟩ ∧
      second.sockets (netNegotiateSocket order second.names secondCon secondLis).returned =
        some ⟨connection, side.other⟩ := by
  rw [firstHolds.negotiates, secondHolds.negotiates, firstHolds.listens, secondHolds.listens]
  rcases SockaddrIn.below_or_below order distinct with below | below
  · rw [negotiateNames_of_lis_below below, negotiateNames_of_con_below below]
    exact ⟨inbound, .accepted, firstHolds.accepted, secondHolds.connected⟩
  · rw [negotiateNames_of_con_below below, negotiateNames_of_lis_below below]
    exact ⟨outbound, .connecting, firstHolds.connected, secondHolds.accepted⟩

def loopbackName (port : Bytes) (length_port : port.length = 2) : SockaddrIn :=
  ⟨[127, 0, 0, 1], port, rfl, length_port⟩

def loopbackOutbound : TcpConnection := ⟨loopbackName [200, 1] rfl, loopbackName [60, 192] rfl⟩

def loopbackInbound : TcpConnection := ⟨loopbackName [200, 2] rfl, loopbackName [60, 191] rfl⟩

def loopbackNode (outbound inbound : TcpConnection) : NetNode where
  listening := inbound.target
  sockets := fun sock =>
    if sock = 5 then some ⟨outbound, .connecting⟩
    else if sock = 6 then some ⟨inbound, .accepted⟩
    else none

theorem loopback_same_connection :
    ∃ connection side,
      (loopbackNode loopbackOutbound loopbackInbound).sockets
          (netNegotiateSocket .little
            (loopbackNode loopbackOutbound loopbackInbound).names 5 6).returned =
        some ⟨connection, side⟩ ∧
      (loopbackNode loopbackInbound loopbackOutbound).sockets
          (netNegotiateSocket .little
            (loopbackNode loopbackInbound loopbackOutbound).names 5 6).returned =
        some ⟨connection, side.other⟩ :=
  netNegotiateSocket_same_connection .little
    (loopbackNode loopbackOutbound loopbackInbound)
    (loopbackNode loopbackInbound loopbackOutbound)
    loopbackOutbound loopbackInbound 5 6 5 6 (by decide)
    ⟨by decide, by decide, by decide, by decide, rfl⟩
    ⟨by decide, by decide, by decide, by decide, rfl⟩

end MonitorMerlin
