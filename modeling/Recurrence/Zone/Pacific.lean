import Recurrence.Zone

namespace Recurrence.Zone

/-! Zones of Australia and the Pacific.

The changes of a history are listed from the latest to the earliest, in Unix seconds.  The phase of
the first one holds for all later times.
-/

namespace Sydney

def localMean : Phase := ⟨36300, 0⟩

def standard : Phase := ⟨36000, 0⟩

def summer : Phase := ⟨39600, 3600⟩

def history : History where
  name := "Australia/Sydney"
  initial := localMean
  shifts := [
    ⟨2138198400, summer⟩, ⟨2122473600, standard⟩, ⟨2106748800, summer⟩, ⟨2091024000, standard⟩,
    ⟨2075299200, summer⟩, ⟨2058969600, standard⟩, ⟨2043244800, summer⟩, ⟨2027520000, standard⟩,
    ⟨2011795200, summer⟩, ⟨1996070400, standard⟩, ⟨1980345600, summer⟩, ⟨1964620800, standard⟩,
    ⟨1948896000, summer⟩, ⟨1933171200, standard⟩, ⟨1917446400, summer⟩, ⟨1901721600, standard⟩,
    ⟨1885996800, summer⟩, ⟨1869667200, standard⟩, ⟨1853942400, summer⟩, ⟨1838217600, standard⟩,
    ⟨1822492800, summer⟩, ⟨1806768000, standard⟩, ⟨1791043200, summer⟩, ⟨1775318400, standard⟩,
    ⟨1759593600, summer⟩, ⟨1743868800, standard⟩, ⟨1728144000, summer⟩, ⟨1712419200, standard⟩,
    ⟨1696089600, summer⟩, ⟨1680364800, standard⟩, ⟨1664640000, summer⟩, ⟨1648915200, standard⟩,
    ⟨1633190400, summer⟩, ⟨1617465600, standard⟩, ⟨1601740800, summer⟩, ⟨1586016000, standard⟩,
    ⟨1570291200, summer⟩, ⟨1554566400, standard⟩, ⟨1538841600, summer⟩, ⟨1522512000, standard⟩,
    ⟨1506787200, summer⟩, ⟨1491062400, standard⟩, ⟨1475337600, summer⟩, ⟨1459612800, standard⟩,
    ⟨1443888000, summer⟩, ⟨1428163200, standard⟩, ⟨1412438400, summer⟩, ⟨1396713600, standard⟩,
    ⟨1380988800, summer⟩, ⟨1365264000, standard⟩, ⟨1349539200, summer⟩, ⟨1333209600, standard⟩,
    ⟨1317484800, summer⟩, ⟨1301760000, standard⟩, ⟨1286035200, summer⟩, ⟨1270310400, standard⟩,
    ⟨1254585600, summer⟩, ⟨1238860800, standard⟩, ⟨1223136000, summer⟩, ⟨1207411200, standard⟩,
    ⟨1193500800, summer⟩, ⟨1174752000, standard⟩, ⟨1162051200, summer⟩, ⟨1143907200, standard⟩,
    ⟨1130601600, summer⟩, ⟨1111852800, standard⟩, ⟨1099152000, summer⟩, ⟨1080403200, standard⟩,
    ⟨1067097600, summer⟩, ⟨1048953600, standard⟩, ⟨1035648000, summer⟩, ⟨1017504000, standard⟩,
    ⟨1004198400, summer⟩, ⟨985449600, standard⟩, ⟨967305600, summer⟩, ⟨954000000, standard⟩,
    ⟨941299200, summer⟩, ⟨922550400, standard⟩, ⟨909244800, summer⟩, ⟨891100800, standard⟩,
    ⟨877795200, summer⟩, ⟨859651200, standard⟩, ⟨846345600, summer⟩, ⟨828201600, standard⟩,
    ⟨814896000, summer⟩, ⟨794332800, standard⟩, ⟨783446400, summer⟩, ⟨762883200, standard⟩,
    ⟨751996800, summer⟩, ⟨731433600, standard⟩, ⟨719942400, summer⟩, ⟨699379200, standard⟩,
    ⟨688492800, summer⟩, ⟨667929600, standard⟩, ⟨657043200, summer⟩, ⟨636480000, standard⟩,
    ⟨625593600, summer⟩, ⟨606240000, standard⟩, ⟨594144000, summer⟩, ⟨574790400, standard⟩,
    ⟨562089600, summer⟩, ⟨542736000, standard⟩, ⟨530035200, summer⟩, ⟨511286400, standard⟩,
    ⟨499190400, summer⟩, ⟨478627200, standard⟩, ⟨467740800, summer⟩, ⟨447177600, standard⟩,
    ⟨436291200, summer⟩, ⟨415728000, standard⟩, ⟨404841600, summer⟩, ⟨386697600, standard⟩,
    ⟨372787200, summer⟩, ⟨352224000, standard⟩, ⟨341337600, summer⟩, ⟨320774400, standard⟩,
    ⟨309888000, summer⟩, ⟨289324800, standard⟩, ⟨278438400, summer⟩, ⟨257875200, standard⟩,
    ⟨246988800, summer⟩, ⟨226425600, standard⟩, ⟨215539200, summer⟩, ⟨194976000, standard⟩,
    ⟨183484800, summer⟩, ⟨162921600, standard⟩, ⟨152035200, summer⟩, ⟨131472000, standard⟩,
    ⟨120585600, summer⟩, ⟨100022400, standard⟩, ⟨89136000, summer⟩, ⟨67968000, standard⟩,
    ⟨57686400, summer⟩, ⟨-813225600, standard⟩, ⟨-828345600, summer⟩, ⟨-844675200, standard⟩,
    ⟨-860400000, summer⟩, ⟨-876124800, standard⟩, ⟨-883641600, summer⟩, ⟨-1665388800, standard⟩,
    ⟨-1672560000, summer⟩, ⟨-2147483648, standard⟩]

end Sydney

namespace LordHowe

def localMean : Phase := ⟨38160, 0⟩

def eastern : Phase := ⟨36000, 0⟩

def standard : Phase := ⟨37800, 0⟩

def summerByHour : Phase := ⟨41400, 3600⟩

def summer : Phase := ⟨39600, 1800⟩

def history : History where
  name := "Australia/Lord_Howe"
  initial := localMean
  shifts := [
    ⟨2138196600, summer⟩, ⟨2122470000, standard⟩, ⟨2106747000, summer⟩, ⟨2091020400, standard⟩,
    ⟨2075297400, summer⟩, ⟨2058966000, standard⟩, ⟨2043243000, summer⟩, ⟨2027516400, standard⟩,
    ⟨2011793400, summer⟩, ⟨1996066800, standard⟩, ⟨1980343800, summer⟩, ⟨1964617200, standard⟩,
    ⟨1948894200, summer⟩, ⟨1933167600, standard⟩, ⟨1917444600, summer⟩, ⟨1901718000, standard⟩,
    ⟨1885995000, summer⟩, ⟨1869663600, standard⟩, ⟨1853940600, summer⟩, ⟨1838214000, standard⟩,
    ⟨1822491000, summer⟩, ⟨1806764400, standard⟩, ⟨1791041400, summer⟩, ⟨1775314800, standard⟩,
    ⟨1759591800, summer⟩, ⟨1743865200, standard⟩, ⟨1728142200, summer⟩, ⟨1712415600, standard⟩,
    ⟨1696087800, summer⟩, ⟨1680361200, standard⟩, ⟨1664638200, summer⟩, ⟨1648911600, standard⟩,
    ⟨1633188600, summer⟩, ⟨1617462000, standard⟩, ⟨1601739000, summer⟩, ⟨1586012400, standard⟩,
    ⟨1570289400, summer⟩, ⟨1554562800, standard⟩, ⟨1538839800, summer⟩, ⟨1522508400, standard⟩,
    ⟨1506785400, summer⟩, ⟨1491058800, standard⟩, ⟨1475335800, summer⟩, ⟨1459609200, standard⟩,
    ⟨1443886200, summer⟩, ⟨1428159600, standard⟩, ⟨1412436600, summer⟩, ⟨1396710000, standard⟩,
    ⟨1380987000, summer⟩, ⟨1365260400, standard⟩, ⟨1349537400, summer⟩, ⟨1333206000, standard⟩,
    ⟨1317483000, summer⟩, ⟨1301756400, standard⟩, ⟨1286033400, summer⟩, ⟨1270306800, standard⟩,
    ⟨1254583800, summer⟩, ⟨1238857200, standard⟩, ⟨1223134200, summer⟩, ⟨1207407600, standard⟩,
    ⟨1193499000, summer⟩, ⟨1174748400, standard⟩, ⟨1162049400, summer⟩, ⟨1143903600, standard⟩,
    ⟨1130599800, summer⟩, ⟨1111849200, standard⟩, ⟨1099150200, summer⟩, ⟨1080399600, standard⟩,
    ⟨1067095800, summer⟩, ⟨1048950000, standard⟩, ⟨1035646200, summer⟩, ⟨1017500400, standard⟩,
    ⟨1004196600, summer⟩, ⟨985446000, standard⟩, ⟨967303800, summer⟩, ⟨953996400, standard⟩,
    ⟨941297400, summer⟩, ⟨922546800, standard⟩, ⟨909243000, summer⟩, ⟨891097200, standard⟩,
    ⟨877793400, summer⟩, ⟨859647600, standard⟩, ⟨846343800, summer⟩, ⟨828198000, standard⟩,
    ⟨814894200, summer⟩, ⟨794329200, standard⟩, ⟨783444600, summer⟩, ⟨762879600, standard⟩,
    ⟨751995000, summer⟩, ⟨731430000, standard⟩, ⟨719940600, summer⟩, ⟨699375600, standard⟩,
    ⟨688491000, summer⟩, ⟨667926000, standard⟩, ⟨657041400, summer⟩, ⟨636476400, standard⟩,
    ⟨625591800, summer⟩, ⟨606236400, standard⟩, ⟨594142200, summer⟩, ⟨574786800, standard⟩,
    ⟨562087800, summer⟩, ⟨542732400, standard⟩, ⟨530033400, summer⟩, ⟨511282800, standard⟩,
    ⟨499188600, summer⟩, ⟨478621800, standard⟩, ⟨467739000, summerByHour⟩, ⟨447172200, standard⟩,
    ⟨436289400, summerByHour⟩, ⟨415722600, standard⟩, ⟨404839800, summerByHour⟩,
    ⟨384273000, standard⟩, ⟨372785400, summerByHour⟩, ⟨352216800, standard⟩,
    ⟨-2147483648, eastern⟩]

end LordHowe

namespace Apia

def localMean : Phase := ⟨45180, 0⟩

def localMeanEast : Phase := ⟨-41220, 0⟩

def halfHour : Phase := ⟨-41400, 0⟩

def eastOfDateLine : Phase := ⟨-39600, 0⟩

def summerEast : Phase := ⟨-36000, 3600⟩

def summer : Phase := ⟨50400, 3600⟩

def standard : Phase := ⟨46800, 0⟩

def history : History where
  name := "Pacific/Apia"
  initial := localMean
  shifts := [
    ⟨1617458400, standard⟩, ⟨1601128800, summer⟩, ⟨1586008800, standard⟩, ⟨1569679200, summer⟩,
    ⟨1554559200, standard⟩, ⟨1538229600, summer⟩, ⟨1522504800, standard⟩, ⟨1506175200, summer⟩,
    ⟨1491055200, standard⟩, ⟨1474725600, summer⟩, ⟨1459605600, standard⟩, ⟨1443276000, summer⟩,
    ⟨1428156000, standard⟩, ⟨1411826400, summer⟩, ⟨1396706400, standard⟩, ⟨1380376800, summer⟩,
    ⟨1365256800, standard⟩, ⟨1348927200, summer⟩, ⟨1333202400, standard⟩, ⟨1325239200, summer⟩,
    ⟨1316872800, summerEast⟩, ⟨1301752800, eastOfDateLine⟩, ⟨1285498800, summerEast⟩,
    ⟨-631110600, eastOfDateLine⟩, ⟨-1861878784, halfHour⟩, ⟨-2147483648, localMeanEast⟩]

end Apia

end Recurrence.Zone
