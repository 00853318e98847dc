import ClearMoon.Tcp.Service

/-!
# An echo server

The server of the integration test sends back what it has received: its message callback takes all
of the input and hands it to `send`. Whatever a client sends then comes back to it, in order and
without gaps, and has come back completely when both loops are at rest.
-/

namespace ClearMoon.Tcp

open ClearMoon.Net

/-- The message callback of the server, `msg = buf->readAllAsString(); conn->send(msg);`. -/
def echo : Service Unit := fun u input => ⟨u, input.length, [.send input]⟩

/-- It retrieves all that it is given, and sends it. -/
theorem course_echo (chunks : List Bytes) :
    (echo.course () chunks).input = [] ∧ OnlySends (echo.course () chunks).calls ∧
      messages (echo.course () chunks).calls = chunks.flatten := by
  induction chunks using List.reverseRecOn with
  | nil => exact ⟨rfl, nofun, rfl⟩
  | append_singleton chunks data ih =>
    obtain ⟨hinput, hsends, hmessages⟩ := ih
    have hnext : echo.next (echo.course () chunks) data =
        ⟨(), [], (echo.course () chunks).calls ++ [.send data]⟩ := by
      simp [Service.next, echo, hinput]
    rw [Service.course_concat, hnext]
    refine ⟨rfl, fun c hc => ?_, ?_⟩
    · rcases List.mem_append.mp hc with hc | hc
      · exact hsends c hc
      · exact ⟨data, List.mem_singleton.mp hc⟩
    · rw [messages_append, hmessages, List.flatten_append]
      rfl

namespace Serviced

variable {fd : Side → Nat} {callbacks : Side → Callback → Bool} {disk : Side → Bytes → Bytes}
  {x : Serviced Unit} {as : List (Side × PeerAction)}

/-- What comes back to the client is a prefix of what it has sent, at any time, and all of it when
everything is at rest. -/
theorem echo_of_run (hcallback : callbacks .far .message = true)
    (h : Run (step echo) ClientInOrder (start fd callbacks disk ()) as x) :
    (x.net.peer .near).retrieved ++ (x.net.peer .near).loop.input <+:
      contents (disk .near) (accepted (x.net.peer .near).loop.trace) ∧
    (AtRest x.net → (x.net.peer .near).retrieved ++ (x.net.peer .near).loop.input =
      contents (disk .near) (accepted (x.net.peer .near).loop.trace)) := by
  obtain ⟨-, hsends, hmessages⟩ := course_echo x.host.chunks
  obtain ⟨⟨hforth, hback⟩, hrest⟩ := replies_of_run hcallback h hsends
  rw [hmessages] at hback
  refine ⟨hback.trans hforth, fun hr => ?_⟩
  obtain ⟨hforth, hback⟩ := hrest hr
  rw [hback, hmessages, hforth]

/-- A message comes back in two pieces. -/
def echoedInPieces : List (Side × PeerAction) :=
  Peers.loops .near (TcpLoop.establishing ++
    [.call (.send [1, 2]), .run { timer := 2, write := .done 9 }, .ret, .ret]) ++
  Peers.loops .far (TcpLoop.establishing ++ [.ret] ++ TcpLoop.readable 2 (.done [1, 2]) ++
    [.retrieve 2, .call (.send [1, 2]), .run { timer := 1, write := .done 1 }, .ret,
      .resume { timer := 1 }, .resume { timer := 1 }, .doPendingFuncs] ++
    TcpLoop.writeable 1 (.done 9) .again ++ [.ret, .resume { timer := 2 }]) ++
  Peers.loops .near (TcpLoop.readable 2 (.done [1]) ++ [.retrieve 1, .ret, .resume { timer := 1 },
    .resume { timer := 1 }, .doPendingFuncs] ++ TcpLoop.readable 1 (.done [2]))

/-- Two bytes come back one by one: the client has read one, the other waits. -/
theorem echo_of_run_echoedInPieces :
    ∃ x, Run (step echo) ClientInOrder (start (fun _ => 7) (fun _ _ => true) (fun _ => id) ())
        echoedInPieces x ∧ AtRest x.net ∧
      (x.net.peer .near).retrieved = [1] ∧ (x.net.peer .near).loop.input = [2] ∧
      (x.net.peer .near).retrieved ++ (x.net.peer .near).loop.input =
        contents id (accepted (x.net.peer .near).loop.trace) := by
  have hreplay : (replay (step echo) ClientInOrder
      (start (fun _ => 7) (fun _ _ => true) (fun _ => id) ()) echoedInPieces).any
        (fun x : Serviced Unit => decide (AtRest x.net ∧
          (x.net.peer .near).retrieved = [1] ∧ (x.net.peer .near).loop.input = [2])) = true := by
    decide +kernel
  obtain ⟨x, hx, he⟩ := Option.any_eq_true _ _ |>.mp hreplay
  obtain ⟨hrest, hretrieved, hinput⟩ := of_decide_eq_true he
  exact ⟨x, .of_replay hx, hrest, hretrieved, hinput, (echo_of_run rfl (.of_replay hx)).2 hrest⟩

end Serviced

end ClearMoon.Tcp
