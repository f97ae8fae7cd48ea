/-!
# Names of exports by number

Some system libraries are commonly imported by the number of an export.  The tables here name those exports.
-/

namespace Hallmark.Pe

def socketOrdinals : List (UInt32 × String) := [
  (1, "accept"), (2, "bind"), (3, "closesocket"), (4, "connect"), (5, "getpeername"),
  (6, "getsockname"), (7, "getsockopt"), (8, "htonl"), (9, "htons"), (10, "ioctlsocket"),
  (11, "inet_addr"), (12, "inet_ntoa"), (13, "listen"), (14, "ntohl"), (15, "ntohs"), (16, "recv"),
  (17, "recvfrom"), (18, "select"), (19, "send"), (20, "sendto"), (21, "setsockopt"), (22, "shutdown"),
  (23, "socket"), (51, "gethostbyaddr"), (52, "gethostbyname"), (53, "getprotobyname"),
  (54, "getprotobynumber"), (55, "getservbyname"), (56, "getservbyport"), (57, "gethostname"),
  (101, "WSAAsyncSelect"), (102, "WSAAsyncGetHostByAddr"), (103, "WSAAsyncGetHostByName"),
  (104, "WSAAsyncGetProtoByNumber"), (105, "WSAAsyncGetProtoByName"), (106, "WSAAsyncGetServByPort"),
  (107, "WSAAsyncGetServByName"), (108, "WSACancelAsyncRequest"), (109, "WSASetBlockingHook"),
  (110, "WSAUnhookBlockingHook"), (111, "WSAGetLastError"), (112, "WSASetLastError"),
  (113, "WSACancelBlockingCall"), (114, "WSAIsBlocking"), (115, "WSAStartup"), (116, "WSACleanup"),
  (151, "__WSAFDIsSet"), (500, "WEP")]

def automationOrdinals : List (UInt32 × String) := [
  (2, "SysAllocString"), (3, "SysReAllocString"), (4, "SysAllocStringLen"), (5, "SysReAllocStringLen"),
  (6, "SysFreeString"), (7, "SysStringLen"), (8, "VariantInit"), (9, "VariantClear"),
  (10, "VariantCopy"), (11, "VariantCopyInd"), (12, "VariantChangeType"),
  (13, "VariantTimeToDosDateTime"), (14, "DosDateTimeToVariantTime"), (15, "SafeArrayCreate"),
  (16, "SafeArrayDestroy"), (17, "SafeArrayGetDim"), (18, "SafeArrayGetElemsize"),
  (19, "SafeArrayGetUBound"), (20, "SafeArrayGetLBound"), (21, "SafeArrayLock"),
  (22, "SafeArrayUnlock"), (23, "SafeArrayAccessData"), (24, "SafeArrayUnaccessData"),
  (25, "SafeArrayGetElement"), (26, "SafeArrayPutElement"), (27, "SafeArrayCopy"), (28, "DispGetParam"),
  (29, "DispGetIDsOfNames"), (30, "DispInvoke"), (31, "CreateDispTypeInfo"), (32, "CreateStdDispatch"),
  (33, "RegisterActiveObject"), (34, "RevokeActiveObject"), (35, "GetActiveObject"),
  (36, "SafeArrayAllocDescriptor"), (37, "SafeArrayAllocData"), (38, "SafeArrayDestroyDescriptor"),
  (39, "SafeArrayDestroyData"), (40, "SafeArrayRedim"), (147, "VariantChangeTypeEx"),
  (149, "SysStringByteLen"), (150, "SysAllocStringByteLen"), (161, "LoadTypeLib"),
  (162, "LoadRegTypeLib"), (163, "RegisterTypeLib")]

/-- The table of a library, whose name is in lower case and without its extension. -/
def ordinalTable (library : String) : List (UInt32 × String) :=
  if library = "ws2_32" ∨ library = "wsock32" then socketOrdinals
  else if library = "oleaut32" then automationOrdinals
  else []

/-- The name of the export `ordinal` of a library; `ord` and the number where the tables have none. -/
def ordinalName (library : String) (ordinal : UInt32) : String :=
  ((ordinalTable library).lookup ordinal).getD ("ord" ++ toString ordinal.toNat)

end Hallmark.Pe
