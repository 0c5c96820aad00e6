import BallyOS.Tcp.Server
import BallyOS.Usb.SerialServer

/-! What the peers of the two stream servers receive. Both servers keep the
account of their sessions balanced, so a peer sees the frames of its own
session, whole and in order, up to where the link stopped. -/
namespace BallyOS.Transport
open Library

/-- However the socket and the FIFO cut the writes, each session is written a
prefix of the frames it admitted, and what a live session has not been written
is still waiting. -/
theorem sessions_receive_their_own_frames
    (tcpRan : run Tcp.step {} tcpEvents = some tcp)
    (usbRan : run Usb.step {} usbEvents = some usb) :
    (tcp.ledger.Faithful ∧ (tcp.clientFd.isSome →
      itemsOf tcp.sessions tcp.ledger.admitted =
        itemsOf tcp.sessions tcp.ledger.written ++ pending tcp.sendQueue)) ∧
    (usb.ledger.Faithful ∧ (usb.connected →
      itemsOf usb.sessions usb.ledger.admitted =
        itemsOf usb.sessions usb.ledger.written ++ (usb.fifo ++ pending usb.sendQueue))) := by
  have tcpSound := Tcp.sound_run tcpRan
  have usbSound := Usb.sound_run usbRan
  refine ⟨⟨tcpSound.settled.faithful, fun here => ?_⟩, usbSound.settled.faithful, fun up => ?_⟩
  · exact (tcpSound.serving here).live
  · exact (usbSound.serving up).live

def answersOf (answers : List Tcp.SendAnswer) (index : Nat) : Tcp.SendAnswer :=
  answers.getD index (.error .eagain)

/-- A frame is cut by a short write and by a lack of memory, the peer goes away
in the middle of the next, and another peer connects. -/
def shortWritesTrace : List Tcp.Event :=
  [.start, .accept 5, .send ⟨[1, 2, 3], by simp⟩ .normal true true,
    .drain (answersOf [.written 2]) true, .send ⟨[4, 5], by simp⟩ .telemetry true true,
    .drain (answersOf [.error .enomem]) true, .drain (answersOf [.written 1, .written 1]) true,
    .received, .accept 6, .send ⟨[6, 7], by simp⟩ .normal true true,
    .drain (answersOf [.written 1]) true]

/-- The host stops collecting in the middle of a frame and reopens the port. -/
def reopenedPortTrace : List Usb.Event :=
  [.lineState true, .send ⟨[1, 2, 3], by simp⟩ .normal true true (fun _ => 2), .transmit 1,
    .lineState true, .send ⟨[4, 5], by simp⟩ .normal true true (fun _ => 1), .transmit 64,
    .txComplete (fun _ => 1), .transmit 64]

theorem sessions_of_cut_links_receive_their_own_frames : ∃ tcp usb,
    run Tcp.step {} shortWritesTrace = some tcp ∧ run Usb.step {} reopenedPortTrace = some usb ∧
    itemsOf 1 tcp.ledger.written = [1, 2, 3, 4] ∧ itemsOf 2 tcp.ledger.written = [6] ∧
    itemsOf 1 usb.ledger.written = [1] ∧ itemsOf 2 usb.ledger.written = [4, 5] ∧
    tcp.ledger.Faithful ∧ usb.ledger.Faithful := by
  have tcpRan : run Tcp.step {} shortWritesTrace = some _ := rfl
  have usbRan : run Usb.step {} reopenedPortTrace = some _ := rfl
  have received := sessions_receive_their_own_frames tcpRan usbRan
  exact ⟨_, _, tcpRan, usbRan, rfl, rfl, rfl, rfl, received.1.1, received.2.1⟩

end BallyOS.Transport
