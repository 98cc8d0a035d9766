import RfcMcp.Sap.Connection

namespace RfcMcp

namespace Transaction

/-- `transaction.commit`. -/
def commit (conn : Conn) (purpose : Purpose) (wait : Bool) : Act PyDict :=
  conn.call purpose "BAPI_TRANSACTION_COMMIT" [("WAIT", .str (if wait then "X" else ""))]

/-- `transaction.rollback`. -/
def rollback (conn : Conn) (purpose : Purpose) : Act PyDict :=
  conn.call purpose "BAPI_TRANSACTION_ROLLBACK" []

end Transaction

end RfcMcp
