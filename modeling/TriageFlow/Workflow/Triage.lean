import TriageFlow.Workflow.Codec

/-!
The built-in workflow: a message is normalised, matched with earlier ones and analysed; an urgent
one is escalated and the others are answered. Appointment requests are routed to a node that this
workflow does not declare.
-/

namespace TriageFlow

/-- The prompt of the analysis. -/
def analysisPrompt : String :=
  "Analyze this message: '\x7b\x7bcontent\x7d\x7d'. "
    ++ "Return ONLY raw JSON with the keys \"sentiment\" (a number from -1 to 1), "
    ++ "\"is_urgent\" (boolean) and \"intent\" (a short lowercase label, "
    ++ "\"rdv\" for appointment requests)."

/-- The prompt of the reply. -/
def replyPrompt : String :=
  "Act as an assistant for a small Belgian business. "
    ++ "Context: \x7b\x7brecall\x7d\x7d. Analysis: \x7b\x7banalysis\x7d\x7d. "
    ++ "Message: \x7b\x7bcontent\x7d\x7d. "
    ++ "Reply politely and helpfully, in the language of the message."

/-- The built-in workflow. -/
def Definition.supportTriage : Definition where
  name := "support-triage"
  nodes :=
    [⟨"normalize", some "Normalize input", false, .transform "normalize"⟩,
      ⟨"recall", some "Recall history", false, .retrieve defaultQuery⟩,
      ⟨"analysis", some "Sentiment analysis", false, .analyze analysisPrompt⟩,
      ⟨"router", some "Router", false, .route
        [⟨.text "analysis.is_urgent == true", "escalation"⟩,
          ⟨.text "analysis.intent == \"rdv\"", "booking"⟩,
          ⟨.tree .always, "reply"⟩]⟩,
      ⟨"reply", some "Generate reply", true, .generate replyPrompt⟩,
      ⟨"escalation", some "Escalate to manager", false,
        .action "send_sms_alert" (.string "Urgent message detected")⟩]

end TriageFlow
