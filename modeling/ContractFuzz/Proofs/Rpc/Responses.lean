import ContractFuzz.Proofs.Campaign.Reports
import ContractFuzz.Proofs.Campaign.Runs
import ContractFuzz.Rpc.Client
import Mathlib

namespace ContractFuzz.Rpc

open Json

variable {σ α : Type}

/-- Whether a message to a service is answered with a certain response. -/
def Transport.Answers (transport : Transport (StateM σ)) (message : Json) (world : σ)
    (response : Response) (next : σ) : Prop :=
  ∃ octets, transport.post message world = (.ok octets, next) ∧
    Response.ofOctets? octets = some response

theorem Response.ofJson?_frame {fields : List (String × Json)} {frame : Frame}
    (hresult : uniqueField? fields "result" = some (some frame.toJson))
    (herror : uniqueField? fields "error" = some none ∨
      uniqueField? fields "error" = some (some .null)) :
    Response.ofJson? (.object fields) = some ⟨some frame.toJson, none⟩ := by
  have hframe : Json.optional result? (some frame.toJson) = some (some frame.toJson) := by
    have hread : result? frame.toJson = some frame.toJson := by
      rw [result?, if_pos frame.settled_toJson.readable, frame.settled_toJson.distinct]
    rw [Json.optional, hread]
    · rfl
    · rw [frame.toJson_eq]
      intro hnull
      cases hnull
  have hrecord (error : Option Json) (h : uniqueField? fields "error" = some error) :
      recordFields? ["result", "error"] (.object fields) = some [some frame.toJson, error] := by
    rw [recordFields?, List.mapM_cons, hresult, List.mapM_cons, h]
    rfl
  rcases herror with h | h
  · rw [ofJson?, hrecord none h]
    simp only [hframe]
    rfl
  · rw [ofJson?, hrecord (some .null) h]
    simp only [hframe]
    rfl

namespace ErrorObject

variable {e : ErrorObject} {method : Method}

theorem executionError_of_ne (h : e.code ≠ 40) :
    e.executionError method = .client (.refused method.name e.code e.message) := if_neg h

theorem executionError_eq_revert_iff {message : String} :
    e.executionError method = .revert ⟨message⟩ ↔ e.code = 40 ∧ message = e.message := by
  constructor
  · intro h
    by_cases hcode : e.code = 40
    · have hrevert : e.executionError method = .revert ⟨e.message⟩ := if_pos hcode
      rw [hrevert] at h
      cases h
      exact ⟨hcode, rfl⟩
    · rw [executionError_of_ne hcode] at h
      cases h
  · rintro ⟨hcode, rfl⟩
    exact if_pos hcode

end ErrorObject

section Answered

variable {transport : Transport (StateM σ)} {method : Method} {parameters : Json} {id : Nat}
  {world next : σ} {response : Response}

theorem numbered_bind {β : Type} (x : Numbered (StateM σ) α) (f : α → Numbered (StateM σ) β)
    (id : Nat) (world : σ) :
    (x >>= f) id world = f (x id world).1.1 (x id world).1.2 (x id world).2 := rfl

theorem numbered_lift (x : StateM σ α) (id : Nat) (world : σ) :
    (liftM x : Numbered (StateM σ) α) id world = (((x world).1, id), (x world).2) := rfl

theorem request_of_answers
    (h : transport.Answers (Request.body id method parameters) world response next) :
    request transport method parameters id world = ((response.decode method, id + 1), next) := by
  obtain ⟨octets, hpost, hresponse⟩ := h
  have hnumber : (nextRequest : Numbered (StateM σ) Nat) id world = ((id, id + 1), world) := rfl
  rw [request, numbered_bind, hnumber]
  dsimp only
  rw [numbered_bind, numbered_lift, hpost]
  simp only [hresponse]
  rfl

theorem requestAs_of_answers
    (h : transport.Answers (Request.body id method parameters) world response next)
    (read : Json → Option α) :
    requestAs transport method parameters read id world =
      (((response.decode method).bind (readResult method read), id + 1), next) := by
  rw [requestAs, numbered_bind, request_of_answers h]
  cases response.decode method <;> rfl

end Answered

/-- Frames and reports are read back from JSON as they were written. So the frame that is the result
of a response is what a request for a frame returns; a response with an error is a revert with its
message if the code is 40, and a failure of the client otherwise, whatever its result. -/
theorem wire_preserves :
    (∀ frame : Frame, Frame.ofJson? frame.toJson = some frame) ∧
      (∀ report : Report, Report.ofJson? report.toJson = some report) ∧
      (∀ fields (frame : Frame), uniqueField? fields "result" = some (some frame.toJson) →
        (uniqueField? fields "error" = some none ∨
          uniqueField? fields "error" = some (some .null)) →
        Response.ofJson? (.object fields) = some ⟨some frame.toJson, none⟩) ∧
      ∀ (σ : Type) (transport : Transport (StateM σ)) method parameters id world response next,
        transport.Answers (Request.body id method parameters) world response next →
        (∀ frame, response = ⟨some frame.toJson, none⟩ →
          requestAs transport method parameters Frame.ofJson? id world =
            ((.ok frame, id + 1), next)) ∧
        ∀ e, response.error = some e → ∀ (α : Type) (read : Json → Option α),
          let answer := (requestAs transport method parameters read id world).1.1
          (∀ message, answer = .error (.revert ⟨message⟩) ↔ e.code = 40 ∧ message = e.message) ∧
            (e.code ≠ 40 → ∃ fault, answer = .error (.client fault)) := by
  refine ⟨Frame.readsBack, Report.readsBack, ?_, ?_⟩
  · intro fields frame hresult herror
    exact Response.ofJson?_frame hresult herror
  · intro σ transport method parameters id world response next hanswers
    constructor
    · rintro frame rfl
      rw [requestAs_of_answers hanswers]
      change ((readResult method Frame.ofJson? frame.toJson, id + 1), next) = _
      rw [readResult, Frame.readsBack frame]
    · intro e herror α read answer
      have hanswer : answer = .error (e.executionError method) := by
        have hdecode : response.decode method = .error (e.executionError method) := by
          rw [Response.decode, herror]
        change (requestAs transport method parameters read id world).1.1 = _
        rw [requestAs_of_answers hanswers, hdecode]
        rfl
      refine ⟨fun message => ?_, fun hcode => ⟨.refused method.name e.code e.message, ?_⟩⟩
      · rw [hanswer, Except.error.injEq]
        exact ErrorObject.executionError_eq_revert_iff
      · exact hanswer.trans (congrArg Except.error (ErrorObject.executionError_of_ne hcode))

/-- The frame of a constructor that executed one address. -/
def parcel : Frame := ⟨10, none, .constructor, [], [], .ofList [4], []⟩

def parcelText : String :=
  "\x7b\"result\":\x7b\"contract_address\":\"0xa\",\"class_hash\":null," ++
    "\"entry_point_type\":\"CONSTRUCTOR\",\"retdata\":[],\"events\":[],\"executed_pcs\":[4]," ++
    "\"internal_calls\":[]\x7d\x7d"

/-- An error with a result beside it. -/
def lossText : String :=
  "\x7b\"result\":7,\"error\":\x7b\"code\":40,\"message\":\"lost\"\x7d\x7d"

/-- A service whose every other answer is an error. -/
def courier : Transport (StateM Nat) where
  endpoint := ""
  post _ := fun asked => (.ok (if asked = 0 then parcelText else lossText).toUTF8, asked + 1)

theorem ofOctets?_toUTF8 (text : String) :
    Response.ofOctets? text.toUTF8 = (Json.parseLoosely text).bind Response.ofJson? := by
  have htext : String.fromUTF8? text.toUTF8 = some text := dif_pos text.isValidUTF8
  rw [Response.ofOctets?, htext]
  rfl

theorem courier_answers_parcel :
    courier.Answers (Request.body 1 .call .null) 0 ⟨some parcel.toJson, none⟩ 1 := by
  have hread : Json.parseLoosely parcelText =
      some (.object [("result", parcel.toJson)]) := by cbv
  have hresponse : Response.ofJson? (.object [("result", parcel.toJson)]) =
      some ⟨some parcel.toJson, none⟩ := Response.ofJson?_frame rfl (.inl rfl)
  refine ⟨_, rfl, (ofOctets?_toUTF8 parcelText).trans ?_⟩
  rw [hread]
  exact hresponse

theorem courier_answers_loss :
    courier.Answers (Request.body 2 .call .null) 1 ⟨some (.int 7), some ⟨40, "lost"⟩⟩ 2 := by
  have hread : Json.parseLoosely lossText = some (.object [("result", .int 7),
      ("error", .object [("code", .int 40), ("message", .string "lost")])]) := by cbv
  refine ⟨_, rfl, (ofOctets?_toUTF8 lossText).trans ?_⟩
  rw [hread]
  rfl

theorem wire_preserves_courier :
    requestAs courier .call .null Frame.ofJson? 1 0 = ((.ok parcel, 2), 1) ∧
      (requestAs courier .call .null Frame.ofJson? 2 1).1.1 = .error (.revert ⟨"lost"⟩) := by
  obtain ⟨-, -, -, hmeans⟩ := wire_preserves
  have hparcel := (hmeans _ courier .call .null 1 0 _ _ courier_answers_parcel).1
  have hloss := (hmeans _ courier .call .null 2 1 _ _ courier_answers_loss).2
  exact ⟨hparcel parcel rfl, ((hloss ⟨40, "lost"⟩ rfl _ Frame.ofJson?).1 "lost").mpr ⟨rfl, rfl⟩⟩

end ContractFuzz.Rpc
