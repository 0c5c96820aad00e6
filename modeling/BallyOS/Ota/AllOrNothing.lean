import BallyOS.Ota.Upload

/-! An upload is all or nothing: the boot partition is switched for a whole image that
was written and ended, and the flag stands exactly while the loop is at work. -/
namespace BallyOS.Ota
open Library

def Stage.flashing : Stage → Bool
  | receiving _ | received .. | broken => true
  | accepted | begun | closing _ => false

/-- What is left to receive, as an `int`: nothing was consumed of a length that has no
`int`. -/
def Upload.Left (upload : Upload) (remaining : Int) : Prop :=
  remaining = asInt upload.request.contentLen - upload.consumed ∧
    (upload.consumed = 0 ∨ 0 ≤ remaining)

/-- What a request under way has come to. -/
structure Carries (upload : Upload) : Prop where
  authorized : upload.request.authorized upload.password = true
  sized : upload.request.body.length = upload.request.contentLen.toNat
  bytes : upload.written = upload.request.body.take upload.consumed
  stage : match upload.stage with
    | .accepted | .begun => upload.consumed = 0 ∧ upload.writesOk = true
    | .receiving remaining => upload.writesOk = true ∧ upload.Left remaining
    | .received remaining count => upload.writesOk = true ∧ upload.Left remaining ∧
        (count : Int) ≤ remaining
    | .broken => True
    | .closing writeError => writeError = false → upload.writesOk = true ∧
        (upload.written = [] ∨ upload.written = upload.request.body)

/-- What a return says that switched the boot partition. -/
def Return.Whole (ret : Return) : Prop :=
  ret.request.authorized ret.password = true ∧ ret.written = ret.request.body ∧
    ret.request.body.length = ret.request.contentLen.toNat ∧ ret.writesOk = true ∧
    ret.endOk = true

/-- The boot partition after some returns. -/
def bootAfter (boot : Nat) (returns : List Return) : Nat :=
  returns.foldl (fun boot ret => if ret.switched then ret.partition else boot) boot

/-- What holds of the server after any run; `boot` is the partition it started from. -/
structure Sound (boot : Nat) (server : UploadServer) : Prop where
  upload : ∀ upload, server.upload = some upload → Carries upload
  flag : server.updater.flashing = server.upload.any fun upload => upload.stage.flashing
  returns : ∀ ret ∈ server.returns, ret.flashing = false ∧ (ret.switched = true → ret.Whole)
  boot : server.bootPartition = bootAfter boot server.returns

private theorem bootAfter_concat (boot : Nat) (returns : List Return) (ret : Return) :
    bootAfter boot (returns ++ [ret]) =
      if ret.switched then ret.partition else bootAfter boot returns := by
  simp only [bootAfter, List.foldl_append, List.foldl_cons, List.foldl_nil]

/-! ### The search beside an upload -/

private theorem flashing_beginScanning (updater : Updater) (tuning : OtaTuning) (direct : Bool)
    (now : UInt32) (answers : Answers) :
    (updater.beginScanning tuning direct now answers).flashing = updater.flashing := by
  unfold Updater.beginScanning
  grind [Updater.failCandidate]

private theorem flashing_survey (updater : Updater) (tuning : OtaTuning) (now : UInt32)
    (answers : Answers) : (updater.survey tuning now answers).flashing = updater.flashing := by
  unfold Updater.survey
  grind

private theorem flashing_process (updater : Updater) (tuning : OtaTuning) (pressed : Bool)
    (now : UInt32)
    (answers : Answers) :
    (updater.process tuning pressed now answers).1.flashing = updater.flashing := by
  unfold Updater.process
  grind [Updater.cancel, Updater.processScanning, Updater.processConnecting,
    Updater.handleScanDone, Updater.failCandidate, Updater.tryNextCandidate]

private theorem searchStep_frame {server next : UploadServer}
    (stepped : server.searchStep tuning event = some next) :
    ∃ updater : Updater, updater.flashing = server.updater.flashing ∧
      next = { server with updater := updater } := by
  cases event with
  | cancel | uploadStart | uploadEnd => contradiction
  | start direct now answers =>
    cases stepped
    exact ⟨_, flashing_beginScanning .., rfl⟩
  | survey now answers =>
    cases stepped
    exact ⟨_, flashing_survey .., rfl⟩
  | tick pressed now answers =>
    simp only [UploadServer.searchStep] at stepped
    split at stepped
    · contradiction
    · cases stepped
      exact ⟨_, flashing_process .., rfl⟩
  | scanDone =>
    cases stepped
    exact ⟨{ server.updater with scanDone := true }, rfl, rfl⟩
  | gotIp attempt | disconnected attempt =>
    simp only [UploadServer.searchStep, step, Option.map_eq_some_iff,
      Option.ite_none_right_eq_some, Option.some.injEq] at stepped
    obtain ⟨updater, ⟨-, raised⟩, rfl⟩ := stepped
    exact ⟨updater, by rw [← raised], rfl⟩

/-! ### One step -/

/-- A handler goes on. -/
theorem sound_upload {server next : UploadServer} {upload : Upload} (sound : Sound boot server)
    (goes : next.upload = some upload) (carries : Carries upload)
    (flag : next.updater.flashing = upload.stage.flashing)
    (returns : next.returns = server.returns)
    (kept : next.bootPartition = server.bootPartition) : Sound boot next where
  upload := by
    intro other same
    cases goes.symm.trans same
    exact carries
  flag := by
    rw [flag, goes]
    rfl
  returns := by
    rw [returns]
    exact sound.returns
  boot := by
    rw [returns, kept]
    exact sound.boot

/-- A handler returns. -/
theorem sound_return {server next : UploadServer} {ret : Return} (sound : Sound boot server)
    (ended : next.upload = none) (lowered : next.updater.flashing = false)
    (returns : next.returns = server.returns ++ [ret]) (flag : ret.flashing = false)
    (whole : ret.switched = true → ret.Whole)
    (set : next.bootPartition = if ret.switched then ret.partition else server.bootPartition) :
    Sound boot next where
  upload := by
    intro upload goes
    cases ended.symm.trans goes
  flag := by
    rw [ended, lowered]
    rfl
  returns := by
    intro other member
    rw [returns] at member
    obtain earlier | last := List.mem_append.mp member
    · exact sound.returns other earlier
    · rw [List.mem_singleton.mp last]
      exact ⟨flag, whole⟩
  boot := by
    rw [returns, bootAfter_concat, ← sound.boot]
    exact set

/-- An answer before anything was written. -/
theorem sound_respond {server : UploadServer} (sound : Sound boot server)
    (lowered : server.updater.flashing = false) (request : Request) (password : List UInt8)
    (response : Response) : Sound boot (server.respond request password response) :=
  sound_return sound rfl lowered rfl lowered (fun switched => by contradiction) rfl

private theorem asInt_pos {length : UInt32} (positive : 0 ≤ asInt length) :
    asInt length = length.toNat := by
  unfold asInt at *
  have := length.toNat_lt
  split
  · rfl
  · rename_i above
    rw [if_neg above] at positive
    omega

/-- At the end of the loop, all of the body was consumed or none of it. -/
theorem whole_of_left {upload : Upload} (carries : Carries upload) {remaining : Int}
    (left : upload.Left remaining) (past : ¬ 0 < remaining) :
    upload.written = [] ∨ upload.written = upload.request.body := by
  obtain ⟨counted, none | some⟩ := left
  · left
    rw [carries.bytes, none, List.take_zero]
  · right
    have consumed : upload.request.body.length = upload.consumed := by
      rw [carries.sized]
      have length := @asInt_pos upload.request.contentLen (by omega)
      omega
    rw [carries.bytes, ← consumed, List.take_length]

private theorem sound_handlerStep {server next : UploadServer} {upload : Upload}
    {event : UploadEvent}
    (sound : Sound boot server) (held : server.upload = some upload)
    (stepped : server.handlerStep upload event = some next) : Sound boot next := by
  have carries := sound.upload upload held
  have stands : server.updater.flashing = upload.stage.flashing := by
    rw [sound.flag, held]
    rfl
  have body := carries.stage
  cases event with
  | begin partition began =>
    simp only [UploadServer.handlerStep] at stepped
    split at stepped
    · rename_i here
      rw [here] at stands body
      split at stepped
      · cases stepped
        exact sound_respond sound stands ..
      · split at stepped
        · cases stepped
          exact sound_upload sound rfl ⟨carries.authorized, carries.sized, carries.bytes, body⟩
            stands rfl rfl
        · cases stepped
          exact sound_respond sound stands ..
    · contradiction
  | raiseFlag =>
    simp only [UploadServer.handlerStep] at stepped
    split at stepped
    · rename_i here
      rw [here] at body
      cases stepped
      refine sound_upload sound rfl ⟨carries.authorized, carries.sized, carries.bytes, ?_⟩
        rfl rfl rfl
      exact ⟨body.2, by rw [body.1]; exact (Int.sub_zero _).symm, .inl body.1⟩
    · contradiction
  | recv received =>
    simp only [UploadServer.handlerStep] at stepped
    split at stepped
    · rename_i remaining here
      rw [here] at stands body
      split at stepped
      · contradiction
      rename_i asked
      split at stepped
      · -- a timeout: the loop asks again
        cases stepped
        exact sound
      split at stepped
      · cases stepped
        exact sound_upload sound rfl
          ⟨carries.authorized, carries.sized, carries.bytes, trivial⟩ stands rfl rfl
      · cases stepped
        refine sound_upload sound rfl
          ⟨carries.authorized, carries.sized, carries.bytes, body.1, body.2, ?_⟩ stands rfl rfl
        omega
    · contradiction
  | write written =>
    simp only [UploadServer.handlerStep] at stepped
    split at stepped
    · rename_i remaining count here
      rw [here] at stands body
      obtain ⟨clean, ⟨counted, -⟩, fits⟩ := body
      have bytes : upload.written ++ (upload.request.body.drop upload.consumed).take count =
          upload.request.body.take (upload.consumed + count) := by
        rw [carries.bytes, List.take_add]
      split at stepped
      · cases stepped
        refine sound_upload sound rfl
          ⟨carries.authorized, carries.sized, bytes, clean, ?_, .inr ?_⟩ stands rfl rfl
        · dsimp only
          omega
        · omega
      · cases stepped
        exact sound_upload sound rfl ⟨carries.authorized, carries.sized, bytes, trivial⟩
          stands rfl rfl
    · contradiction
  | lowerFlag =>
    simp only [UploadServer.handlerStep] at stepped
    split at stepped
    · rename_i remaining here
      rw [here] at body
      split at stepped
      · contradiction
      · rename_i past
        cases stepped
        have whole := whole_of_left carries body.2 past
        exact sound_upload sound rfl
          ⟨carries.authorized, carries.sized, carries.bytes, fun _ => ⟨body.1, whole⟩⟩
          rfl rfl rfl
    · cases stepped
      exact sound_upload sound rfl
        ⟨carries.authorized, carries.sized, carries.bytes, fun clean => by contradiction⟩
        rfl rfl rfl
    · contradiction
  | finish ended bootSet =>
    simp only [UploadServer.handlerStep] at stepped
    split at stepped
    · rename_i writeError here
      rw [here] at stands body
      split at stepped
      · contradiction
      rename_i wrote
      cases stepped
      refine sound_return sound rfl stands rfl stands (fun switched => ?_) rfl
      simp only [Bool.and_eq_true, Bool.not_eq_true'] at switched
      obtain ⟨⟨clean, ended⟩, -⟩ := switched
      obtain ⟨writesOk, none | all⟩ := body clean
      · exact absurd ⟨clean, ended, none⟩ wrote
      · refine ⟨carries.authorized, all, carries.sized, writesOk, ?_⟩
        simp only [clean, ended, Bool.not_false, Bool.and_self]
    · contradiction
  | _ => contradiction

private theorem sound_step {server next : UploadServer} {event : UploadEvent}
    (sound : Sound boot server)
    (stepped : server.step tuning event = some next) : Sound boot next := by
  cases event with
  | updater event =>
    obtain ⟨updater, flashing, rfl⟩ := searchStep_frame stepped
    exact ⟨sound.upload, flashing.trans sound.flag, sound.returns, sound.boot⟩
  | configure password =>
    cases stepped
    exact ⟨sound.upload, sound.flag, sound.returns, sound.boot⟩
  | cancel =>
    simp only [UploadServer.step] at stepped
    split at stepped
    · cases stepped
      exact sound
    · cases stepped
      exact ⟨sound.upload, sound.flag, sound.returns, sound.boot⟩
  | stopServer =>
    simp only [UploadServer.step, Option.ite_none_left_eq_some, Option.some.injEq] at stepped
    obtain ⟨-, rfl⟩ := stepped
    exact ⟨sound.upload, sound.flag, sound.returns, sound.boot⟩
  | post request =>
    simp only [UploadServer.step] at stepped
    split at stepped
    · contradiction
    rename_i serving
    have idle : server.upload = none := by
      rw [← Option.not_isSome_iff_eq_none]
      exact fun busy => serving (.inl busy)
    have sized : request.body.length = request.contentLen.toNat :=
      Decidable.not_not.mp fun other => serving (.inr (.inr other))
    have lowered : server.updater.flashing = false := by
      rw [sound.flag, idle]
      rfl
    split at stepped
    · cases stepped
      exact sound_respond sound lowered ..
    rename_i allowed
    split at stepped
    · cases stepped
      exact sound_respond sound lowered ..
    · cases stepped
      refine sound_upload sound rfl ⟨?_, sized, rfl, rfl, rfl⟩ lowered rfl rfl
      simpa using allowed
  | begin | raiseFlag | recv | write | lowerFlag | finish =>
    simp only [UploadServer.step] at stepped
    split at stepped
    · contradiction
    · rename_i upload held
      exact sound_handlerStep sound held stepped

/-- What an operator can rely on: only a whole image, let in by the password, written
and ended, switches the boot partition, which is otherwise as it was; no return leaves
the flag up; and while it is up neither a cancel nor a button ends the session. -/
structure AllOrNothing (tuning : OtaTuning) (boot : Nat) (server : UploadServer) : Prop where
  switches : ∀ ret ∈ server.returns, ret.switched = true → ret.Whole
  unchanged : server.bootPartition = bootAfter boot server.returns
  lowered : ∀ ret ∈ server.returns, ret.flashing = false
  idle : server.upload = none → server.updater.flashing = false
  ignored : server.updater.flashing = true → server.step tuning .cancel = some server ∧
    server.step tuning .stopServer = none ∧
    ∀ pressed, server.updater.cancelsOn pressed = false

/-- In every run: any password, lengths, chunks, timeouts, errors and answers, and
whatever the search and the cancels do beside them. -/
theorem upload_all_or_nothing (tuning : OtaTuning) (boot : Nat) (password : List UInt8)
    (ran : run (UploadServer.step tuning) { bootPartition := boot, password := password }
      events = some server) : AllOrNothing tuning boot server := by
  have started : Sound boot { bootPartition := boot, password := password } :=
    ⟨fun _ none => by contradiction, rfl, fun _ member => absurd member List.not_mem_nil, rfl⟩
  have sound : Sound boot server := run_invariant sound_step started ran
  refine ⟨fun ret member => (sound.returns ret member).2, sound.boot,
    fun ret member => (sound.returns ret member).1, fun none => ?_, fun flashing => ?_⟩
  · rw [sound.flag, none]
    rfl
  · have busy : server.upload.isSome = true := by
      have flag := sound.flag
      rw [flashing] at flag
      obtain ⟨upload, held, -⟩ := (Option.any_eq_true _ _).mp flag.symm
      rw [held]
      rfl
    refine ⟨if_pos (.inl flashing), if_pos (.inr busy), fun pressed => ?_⟩
    simp [Updater.cancelsOn, flashing]

/-- Three bytes in two chunks, with a timeout and a cancel between them. -/
def slowUpload : List UploadEvent :=
  [.updater (.start false 0 { stored := networks "net,key\n".toList }), .updater .scanDone,
    .updater (.tick false 1 { records := ["net".toList] }), .updater (.gotIp 1),
    .updater (.tick false 2 {}), .post ⟨some [112], 3, [7, 8, 9]⟩, .begin (some 1) true,
    .raiseFlag, .recv (-3), .recv 2, .cancel, .write true, .recv 1, .write true, .lowerFlag,
    .finish true true]

theorem upload_all_or_nothing_slow : ∃ server,
    run (UploadServer.step {}) { bootPartition := 0, password := [112] } slowUpload =
      some server ∧ server.bootPartition = 1 ∧ AllOrNothing {} 0 server := by
  have ran : run (UploadServer.step {}) { bootPartition := 0, password := [112] } slowUpload =
      some _ := rfl
  exact ⟨_, ran, rfl, upload_all_or_nothing {} 0 [112] ran⟩

end BallyOS.Ota
